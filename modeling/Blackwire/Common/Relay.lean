import Blackwire.Lib.Bytes
import Blackwire.Lib.Poll
import Mathlib.Data.List.DropRight
import Mathlib.Data.UInt

/-!
This module contains the relay that copies between two streams in one task, and proves that it is a
faithful pipe in both directions. The streams are given by what they answer when they are polled,
and every direction keeps a log of what its streams did.
-/

namespace Blackwire

open List

structure RelayRingBuffer where
  buf : Bytes
  start : Nat
  capacity : Nat
  maxCapacity : Nat
  start_le : start ≤ buf.length
  length_le : buf.length ≤ capacity
  capacity_pos : 0 < capacity

namespace RelayRingBuffer

def new (initialCapacity maxCapacity surplus : Nat) : RelayRingBuffer where
  buf := []
  start := 0
  capacity := max initialCapacity 1 + surplus
  maxCapacity := max maxCapacity (max initialCapacity 1)
  start_le := by simp
  length_le := by simp
  capacity_pos := by omega

section

variable (b : RelayRingBuffer)

def len : Nat :=
  b.buf.length - b.start

def remainingCapacity : Nat :=
  b.capacity - b.len

def isEmpty : Bool :=
  b.len == 0

def frontSlice : Bytes :=
  b.buf.drop b.start

def compact : RelayRingBuffer :=
  { b with
    buf := b.buf.drop b.start
    start := 0
    start_le := by simp
    length_le := by
      have := b.length_le
      rw [length_drop]
      omega }

end

theorem length_compact (b : RelayRingBuffer) : b.compact.buf.length = b.len := by
  simp [compact, len]

variable (b : RelayRingBuffer)

def pushSlice (bytes : Bytes) : RelayRingBuffer × Nat :=
  let n := min bytes.length b.remainingCapacity
  if n = 0 then
    (b, 0)
  else if h : b.capacity - b.buf.length < n then
    let c := b.compact
    ({ c with
      buf := c.buf ++ bytes.take n
      start_le := by simp [c, compact]
      length_le := by
        have hlen : c.buf.length = b.len := b.length_compact
        have hcap : c.capacity = b.capacity := rfl
        simp only [length_append, length_take, n, remainingCapacity, len] at *
        omega }, n)
  else
    ({ b with
      buf := b.buf ++ bytes.take n
      start_le := by
        have := b.start_le
        rw [length_append]
        omega
      length_le := by
        have := b.length_le
        rw [length_append, length_take]
        omega }, n)

def consume (n : Nat) : RelayRingBuffer :=
  let start := b.start + min n b.len
  if start = b.buf.length then
    { b with
      buf := []
      start := 0
      start_le := by simp
      length_le := by simp }
  else
    { b with
      start
      start_le := by
        have := b.start_le
        simp only [start, len]
        omega }

def reserve (additional surplus : Nat) : RelayRingBuffer :=
  if h : b.capacity - b.buf.length ≥ additional then
    b
  else
    { b with
      capacity := b.buf.length + additional + surplus
      length_le := by omega
      capacity_pos := by omega }

def grow (surplus : Nat) : RelayRingBuffer × Bool :=
  if b.capacity ≥ b.maxCapacity then
    (b, false)
  else
    let next := max (min (Usize.saturatingMul b.capacity 2) b.maxCapacity) 1
    (b.reserve (next - b.buf.length) surplus, true)

end RelayRingBuffer

namespace Relay

inductive RelayFlushPolicy where
  | immediate
  | deferred
  | adaptive
deriving DecidableEq

structure RelayV2Options where
  initialBuffer : Nat
  maxBuffer : Nat
  flushPolicy : RelayFlushPolicy

structure RelayV2Stats where
  bytesAToB : UInt64
  bytesBToA : UInt64
  readOps : UInt64
  writeOps : UInt64
  flushOps : UInt64
  bufferGrowEvents : UInt64

inductive RelayError (ε : Type) where
  | writeZero (msg : String)
  | stream (e : ε)

inductive Op where
  | read (bytes : Bytes)
  | eof
  | wrote (bytes : Bytes)
  | flushed
  | shutdown
deriving DecidableEq

structure RelayDirectionState where
  pending : RelayRingBuffer
  scratchLen : Nat
  readEof : Bool
  shutdownSent : Bool
  flushPending : Bool
  bytes : UInt64
  readOps : UInt64
  writeOps : UInt64
  flushOps : UInt64
  growEvents : UInt64
  scratch_pos : 0 < scratchLen

structure Direction extends RelayDirectionState where
  log : List Op
  recorded : List (UInt64 × UInt64)

namespace Direction

def new (options : RelayV2Options) (surplus : Nat) : Direction where
  pending :=
    .new (max options.initialBuffer 1) (max options.maxBuffer (max options.initialBuffer 1)) surplus
  scratchLen := max options.initialBuffer 1
  readEof := false
  shutdownSent := false
  flushPending := false
  bytes := 0
  readOps := 0
  writeOps := 0
  flushOps := 0
  growEvents := 0
  scratch_pos := by omega
  log := []
  recorded := []

def done (d : Direction) : Bool :=
  d.readEof && d.pending.isEmpty && d.shutdownSent

end Direction

/--
What the streams of a direction answer in one call of `poll_relay_direction`, for each place where
it may poll them. A read answers with the bytes that are there, and with none at the end.
-/
structure Answers (ε : Type) where
  write : Poll (Except ε Nat)
  flush : Poll (Except ε Unit)
  read : Poll (Except ε Bytes)
  flushAfterRead : Poll (Except ε Unit)
  flushAtEof : Poll (Except ε Unit)
  shutdown : Poll (Except ε Unit)
  surplus : Nat

abbrev PollM (ε : Type) := EStateM (RelayError ε) Direction

namespace Direction

def trafficOf (isUpload : Bool) (n : Nat) : UInt64 × UInt64 :=
  if isUpload then (UInt64.ofNat n, 0) else (0, UInt64.ofNat n)

def wrote (policy : RelayFlushPolicy) (recorder isUpload : Bool) (written : Bytes) (d : Direction)
    : Direction :=
  { d with
    pending := d.pending.consume written.length
    bytes := d.bytes + UInt64.ofNat written.length
    writeOps := d.writeOps + 1
    flushPending := if policy = .immediate ∨ policy = .adaptive then true else d.flushPending
    log := d.log ++ [.wrote written]
    recorded :=
      if recorder then d.recorded ++ [trafficOf isUpload written.length] else d.recorded }

def flushed (d : Direction) : Direction :=
  { d with flushPending := false, flushOps := d.flushOps + 1, log := d.log ++ [.flushed] }

def readLen (d : Direction) : Nat :=
  min d.pending.remainingCapacity d.scratchLen

def growAfterRead (surplus : Nat) (d : Direction) : Direction :=
  let (pending, grown) := d.pending.grow surplus
  if grown then
    { d with
      pending
      growEvents := d.growEvents + 1
      scratchLen := min (Usize.saturatingMul d.scratchLen 2) pending.capacity
      scratch_pos := by
        have := d.scratch_pos
        have := pending.capacity_pos
        unfold Usize.saturatingMul
        omega }
  else
    d

def received (available : Bytes) (surplus : Nat) (d : Direction) : Direction :=
  let filled := available.take d.readLen
  let log := d.log ++ [if available.isEmpty then .eof else .read filled]
  if filled.length = 0 then
    { d with readEof := true, log }
  else
    let full := filled.length = d.readLen
    let d := { d with pending := (d.pending.pushSlice filled).fst, readOps := d.readOps + 1, log }
    if full ∧ d.pending.remainingCapacity = 0 then
      d.growAfterRead surplus
    else
      d

def shutdownCalled (d : Direction) : Direction :=
  { d with log := d.log ++ [.shutdown] }

end Direction

variable {ε : Type}

section

variable (policy : RelayFlushPolicy)

def pollWrite (recorder isUpload : Bool) (answer : Poll (Except ε Nat))
    : PollM ε Bool := do
  let d ← get
  if d.pending.isEmpty then
    return false
  match answer with
  | .ready (.ok 0) => throw (.writeZero "relay v2 write returned zero")
  | .ready (.ok _) =>
    modify (.wrote policy recorder isUpload (answer.taken d.pending.frontSlice))
    return true
  | .ready (.error e) => throw (.stream e)
  | .pending => return false

def pollFlush (answer : Poll (Except ε Unit)) : PollM ε Bool :=
  match answer with
  | .ready (.ok _) => do
    modify .flushed
    return true
  | .ready (.error e) => throw (.stream e)
  | .pending => return false

def flushIf (due : Direction → Bool) (answer : Poll (Except ε Unit)) : PollM ε Bool := do
  if due (← get) then
    pollFlush answer
  else
    return false

def pollRead (answer : Poll (Except ε Bytes)) (surplus : Nat) : PollM ε (Bool × Bool) := do
  let d ← get
  if d.readEof || d.pending.remainingCapacity == 0 then
    return (false, false)
  match answer with
  | .ready (.ok available) =>
    modify (.received available surplus)
    return (true, false)
  | .ready (.error e) => throw (.stream e)
  | .pending => return (false, true)

def pollShutdown (progressed : Bool) (answer : Poll (Except ε Unit)) : PollM ε Bool := do
  modify .shutdownCalled
  match answer with
  | .ready (.ok _) =>
    modify fun d => { d with shutdownSent := true }
    return true
  | .ready (.error e) => throw (.stream e)
  | .pending => return progressed

def pollClose (progressed : Bool) (a : Answers ε) : PollM ε Bool := do
  let d ← get
  if d.readEof && d.pending.isEmpty && !d.shutdownSent then
    if d.flushPending || policy = .deferred then
      if ← pollFlush a.flushAtEof then
        pollShutdown true a.shutdown
      else
        return progressed
    else
      pollShutdown progressed a.shutdown
  else
    return progressed

def pollRelayDirection (recorder isUpload : Bool) (a : Answers ε)
    : PollM ε Bool := do
  let wrote ← pollWrite policy recorder isUpload a.write
  let flushed ← flushIf (fun d => policy = .immediate && d.flushPending && d.pending.isEmpty)
    a.flush
  let (moved, readPending) ← pollRead a.read a.surplus
  let coalesced ← flushIf (fun d => policy = .adaptive && d.flushPending && d.pending.isEmpty
    && (readPending || d.readEof)) a.flushAfterRead
  pollClose policy (wrote || flushed || moved || coalesced) a

end

structure Session (ε : Type) where
  up : Direction
  down : Direction
  result : Option (Except (RelayError ε) RelayV2Stats)

namespace Session

variable (options : RelayV2Options)

def start (surplus : Nat × Nat) : Session ε :=
  ⟨.new options surplus.fst, .new options surplus.snd, none⟩

def stats (s : Session ε) : RelayV2Stats where
  bytesAToB := s.up.bytes
  bytesBToA := s.down.bytes
  readOps := s.up.readOps + s.down.readOps
  writeOps := s.up.writeOps + s.down.writeOps
  flushOps := s.up.flushOps + s.down.flushOps
  bufferGrowEvents := s.up.growEvents + s.down.growEvents

def round (recorder : Bool) (s : Session ε) (answers : Answers ε × Answers ε) : Session ε :=
  if s.result.isSome then
    s
  else
    match pollRelayDirection options.flushPolicy recorder true answers.fst s.up with
    | .error e up => { s with up, result := some (.error e) }
    | .ok _ up =>
      match pollRelayDirection options.flushPolicy recorder false answers.snd s.down with
      | .error e down => { s with up, down, result := some (.error e) }
      | .ok _ down =>
        let s := { s with up, down }
        if up.done && down.done then
          { s with result := some (.ok s.stats) }
        else
          s

def copyBidirectionalV2 (recorder : Bool) (surplus : Nat × Nat)
    (script : List (Answers ε × Answers ε))
    : Session ε :=
  script.foldl (round options recorder) (start options surplus)

end Session

end Relay

namespace RelayRingBuffer

variable (b : RelayRingBuffer)

theorem length_frontSlice : b.frontSlice.length = b.len := by
  simp [frontSlice, len]

theorem isEmpty_iff : b.isEmpty ↔ b.frontSlice = [] := by
  unfold isEmpty
  rw [← length_frontSlice]
  simp

theorem frontSlice_pushSlice {b : RelayRingBuffer} {bytes : Bytes}
    (h : bytes.length ≤ b.remainingCapacity)
    : (b.pushSlice bytes).fst.frontSlice = b.frontSlice ++ bytes := by
  have hn : min bytes.length b.remainingCapacity = bytes.length := Nat.min_eq_left h
  unfold pushSlice
  dsimp only
  split
  . next hzero =>
    rw [hn, length_eq_zero_iff] at hzero
    simp [hzero]
  . split
    . simp [frontSlice, compact, hn]
    . simp [frontSlice, hn, drop_append_of_le_length b.start_le]

theorem frontSlice_consume (n : Nat)
    : (b.consume n).frontSlice = b.frontSlice.drop n := by
  have hstart := b.start_le
  unfold consume
  dsimp only
  split
  . next hall =>
    simp only [frontSlice, drop_drop, drop_nil]
    rw [drop_eq_nil_of_le]
    omega
  . next hrest =>
    unfold len at *
    simp only [frontSlice, drop_drop]
    congr 1
    omega

theorem frontSlice_grow (surplus : Nat)
    : (b.grow surplus).fst.frontSlice = b.frontSlice := by
  unfold grow reserve
  split
  . rfl
  . dsimp only
    split <;> rfl

end RelayRingBuffer

namespace Relay

open Effect

def sourceBytes (log : List Op) : Bytes :=
  log.flatMap fun
    | .read bytes => bytes
    | _ => []

def written (log : List Op) : Bytes :=
  log.flatMap fun
    | .wrote bytes => bytes
    | _ => []

def flushedBytes (log : List Op) : Bytes :=
  written (log.rdropWhile (· ≠ .flushed))

def traffic (calls : List (UInt64 × UInt64)) : UInt64 × UInt64 :=
  ((calls.map Prod.fst).sum, (calls.map Prod.snd).sum)

theorem flushedBytes_concat_flushed {log : List Op}
    : flushedBytes (log ++ [.flushed]) = written (log ++ [.flushed]) := by
  unfold flushedBytes
  simp

theorem flushedBytes_concat_of_ne {log : List Op} {op : Op} (h : op ≠ .flushed)
    : flushedBytes (log ++ [op]) = flushedBytes log := by
  unfold flushedBytes
  rw [rdropWhile_concat_pos]
  simpa using h

structure Faithful (d : Direction) : Prop where
  prefixes : ∀ past, past <+: d.log → written past <+: sourceBytes past
  closes : ∀ past, past ++ [.shutdown] <+: d.log →
    .eof ∈ past ∧ written past = sourceBytes past ∧ flushedBytes past = written past
  counted : d.bytes = UInt64.ofNat (written d.log).length

structure Inv (policy : RelayFlushPolicy) (recorder isUpload : Bool) (d : Direction) : Prop
    extends Faithful d where
  pipe : written d.log ++ d.pending.frontSlice = sourceBytes d.log
  ended : d.readEof → .eof ∈ d.log
  clean : d.flushPending = false → policy ≠ .deferred → flushedBytes d.log = written d.log
  recorded : recorder →
    traffic d.recorded = Direction.trafficOf isUpload (written d.log).length

section

theorem inv_new {options : RelayV2Options} {surplus : Nat}
    : Inv policy recorder isUpload (.new options surplus) where
  prefixes := by
    intro past hpast
    have : past = [] := prefix_nil.mp hpast
    simp [this, written]
  closes := by
    intro past hpast
    have := prefix_nil.mp hpast
    simp at this
  counted := by rfl
  pipe := by rfl
  ended := by simp [Direction.new]
  clean := by
    intro _ _
    rfl
  recorded := by
    intro _
    cases isUpload <;> rfl

theorem Faithful.concat {d d' : Direction} (h : Faithful d) {op : Op}
    (hlog : d'.log = d.log ++ [op])
    (hop : op ≠ .shutdown) (hfront : written d'.log <+: sourceBytes d'.log)
    (hcounted : d'.bytes = UInt64.ofNat (written d'.log).length)
    : Faithful d' where
  prefixes := by
    intro past hpast
    rw [hlog, prefix_concat_iff] at hpast
    cases hpast with
    | inl heq =>
      rw [heq, ← hlog]
      exact hfront
    | inr hpast => exact h.prefixes past hpast
  closes := by
    intro past hpast
    rw [hlog, prefix_concat_iff] at hpast
    cases hpast with
    | inl heq =>
      have := append_inj_right' heq rfl
      simp only [List.cons.injEq, and_true] at this
      exact absurd this.symm hop
    | inr hpast => exact h.closes past hpast
  counted := hcounted

theorem Inv.recorded_congr {d d' : Direction} (h : Inv policy recorder isUpload d)
    (hwritten : written d'.log = written d.log) (hrecorded : d'.recorded = d.recorded)
    : recorder → traffic d'.recorded = Direction.trafficOf isUpload (written d'.log).length := by
  rw [hwritten, hrecorded]
  exact h.recorded

theorem inv_flushed (h : Inv policy recorder isUpload d)
    : Inv policy recorder isUpload d.flushed := by
  have hwritten : written d.flushed.log = written d.log := by
    simp [Direction.flushed, written]
  have hsource : sourceBytes d.flushed.log = sourceBytes d.log := by
    simp [Direction.flushed, sourceBytes]
  have hfaithful : Faithful d.flushed := by
    apply h.toFaithful.concat rfl (by simp)
    . rw [hwritten, hsource]
      exact h.prefixes d.log prefix_rfl
    . rw [hwritten]
      exact h.counted
  refine ⟨hfaithful, ?_, ?_, ?_, ?_⟩
  . rw [hwritten, hsource]
    exact h.pipe
  . intro hended
    simp [Direction.flushed, h.ended hended]
  . intro _ _
    apply flushedBytes_concat_flushed
  . apply h.recorded_congr hwritten rfl

theorem traffic_concat {calls : List (UInt64 × UInt64)} (n m : Nat)
    (h : traffic calls = Direction.trafficOf isUpload n)
    : traffic (calls ++ [Direction.trafficOf isUpload m])
        = Direction.trafficOf isUpload (n + m) := by
  unfold traffic Direction.trafficOf at *
  cases isUpload <;> simp_all [UInt64.ofNat_add]

theorem inv_wrote (h : Inv policy recorder isUpload d) {bytes : Bytes}
    (hbytes : bytes ++ d.pending.frontSlice.drop bytes.length = d.pending.frontSlice)
    : Inv policy recorder isUpload (d.wrote policy recorder isUpload bytes) := by
  have hwritten
      : written (d.wrote policy recorder isUpload bytes).log = written d.log ++ bytes := by
    simp [Direction.wrote, written]
  have hsource
      : sourceBytes (d.wrote policy recorder isUpload bytes).log = sourceBytes d.log := by
    simp [Direction.wrote, sourceBytes]
  have hpipe : written d.log ++ bytes ++ d.pending.frontSlice.drop bytes.length
      = sourceBytes d.log := by
    rw [append_assoc, hbytes]
    exact h.pipe
  have hfaithful : Faithful (d.wrote policy recorder isUpload bytes) := by
    apply h.toFaithful.concat rfl (by simp)
    . rw [hwritten, hsource]
      exact ⟨_, hpipe⟩
    . rw [hwritten]
      simp [Direction.wrote, h.counted]
  refine ⟨hfaithful, ?_, ?_, ?_, ?_⟩
  . rw [hwritten, hsource]
    simp only [Direction.wrote, RelayRingBuffer.frontSlice_consume]
    exact hpipe
  . intro hended
    simp only [Direction.wrote, mem_append]
    exact Or.inl (h.ended hended)
  . -- After a write only the deferred policy leaves the mark off.
    cases policy <;> simp_all [Direction.wrote]
  . intro hrecorder
    rw [hwritten, length_append]
    simp only [hrecorder]
    apply traffic_concat
    exact h.recorded hrecorder

structure SameFlow (d d' : Direction) : Prop where
  log : d'.log = d.log
  front : d'.pending.frontSlice = d.pending.frontSlice
  readEof : d'.readEof = d.readEof
  flushPending : d'.flushPending = d.flushPending
  bytes : d'.bytes = d.bytes
  recorded : d'.recorded = d.recorded

theorem Inv.congr (h : Inv policy recorder isUpload d) (hsame : SameFlow d d')
    : Inv policy recorder isUpload d' where
  prefixes := by
    rw [hsame.log]
    exact h.prefixes
  closes := by
    rw [hsame.log]
    exact h.closes
  counted := by
    rw [hsame.log, hsame.bytes]
    exact h.counted
  pipe := by
    rw [hsame.log, hsame.front]
    exact h.pipe
  ended := by
    rw [hsame.log, hsame.readEof]
    exact h.ended
  clean := by
    rw [hsame.log, hsame.flushPending]
    exact h.clean
  recorded := by
    rw [hsame.log, hsame.recorded]
    exact h.recorded

theorem sameFlow_growAfterRead (d : Direction) (surplus : Nat)
    : SameFlow d (d.growAfterRead surplus) := by
  unfold Direction.growAfterRead
  dsimp only
  split
  . constructor <;> try rfl
    apply RelayRingBuffer.frontSlice_grow
  . constructor <;> rfl

theorem inv_eof (h : Inv policy recorder isUpload d)
    (hd : d' = { d with readEof := true, log := d.log ++ [.eof] })
    : Inv policy recorder isUpload d' := by
  subst hd
  have hwritten : written (d.log ++ [.eof]) = written d.log := by
    simp [written]
  have hsource : sourceBytes (d.log ++ [.eof]) = sourceBytes d.log := by
    simp [sourceBytes]
  refine ⟨?_, ?_, ?_, ?_, ?_⟩
  . apply h.toFaithful.concat rfl (by simp)
    . rw [hwritten, hsource]
      exact h.prefixes d.log prefix_rfl
    . rw [hwritten]
      exact h.counted
  . rw [hwritten, hsource]
    exact h.pipe
  . simp
  . intro hclean hpolicy
    rw [flushedBytes_concat_of_ne (by simp), hwritten]
    exact h.clean hclean hpolicy
  . exact h.recorded_congr hwritten rfl

theorem inv_read (h : Inv policy recorder isUpload d) {filled : Bytes}
    (hfits : filled.length ≤ d.pending.remainingCapacity)
    (hd : d' = { d with
      pending := (d.pending.pushSlice filled).fst
      readOps := d.readOps + 1
      log := d.log ++ [.read filled] })
    : Inv policy recorder isUpload d' := by
  subst hd
  have hwritten : written (d.log ++ [.read filled]) = written d.log := by
    simp [written]
  have hsource : sourceBytes (d.log ++ [.read filled]) = sourceBytes d.log ++ filled := by
    simp [sourceBytes]
  refine ⟨?_, ?_, ?_, ?_, ?_⟩
  . apply h.toFaithful.concat rfl (by simp)
    . rw [hwritten, hsource]
      apply (h.prefixes d.log prefix_rfl).trans
      apply prefix_append
    . rw [hwritten]
      exact h.counted
  . rw [hwritten, hsource, RelayRingBuffer.frontSlice_pushSlice hfits]
    rw [← append_assoc, h.pipe]
  . intro hended
    simp [h.ended hended]
  . intro hclean hpolicy
    rw [flushedBytes_concat_of_ne (by simp), hwritten]
    exact h.clean hclean hpolicy
  . exact h.recorded_congr hwritten rfl

theorem inv_received {available : Bytes} {surplus : Nat}
    (h : Inv policy recorder isUpload d) (hroom : 0 < d.pending.remainingCapacity)
    : Inv policy recorder isUpload (d.received available surplus) := by
  have hpos : 0 < d.readLen := by
    have := d.scratch_pos
    unfold Direction.readLen
    omega
  have hfits : (available.take d.readLen).length ≤ d.pending.remainingCapacity := by
    rw [length_take, Direction.readLen]
    omega
  unfold Direction.received
  dsimp only
  split
  . next hnone =>
    -- The buffer of the read is not empty, so nothing is filled only at the end of the stream.
    have hend : available = [] := by
      rw [length_take] at hnone
      rw [← length_eq_zero_iff]
      omega
    apply inv_eof h
    simp [hend]
  . next hsome =>
    have hread := inv_read h hfits rfl
    have hne : available.isEmpty = false := by
      cases available with
      | nil => simp at hsome
      | cons => rfl
    rw [hne]
    split
    . apply hread.congr
      apply sameFlow_growAfterRead
    . exact hread

theorem inv_shutdownCalled (h : Inv policy recorder isUpload d)
    (hended : d.readEof) (hempty : d.pending.isEmpty)
    (hflushed : flushedBytes d.log = written d.log)
    : Inv policy recorder isUpload d.shutdownCalled := by
  have hall : written d.log = sourceBytes d.log := by
    have := h.pipe
    rw [d.pending.isEmpty_iff.mp hempty, append_nil] at this
    exact this
  have hwritten : written d.shutdownCalled.log = written d.log := by
    simp [Direction.shutdownCalled, written]
  have hsource : sourceBytes d.shutdownCalled.log = sourceBytes d.log := by
    simp [Direction.shutdownCalled, sourceBytes]
  refine ⟨⟨?_, ?_, ?_⟩, ?_, ?_, ?_, ?_⟩
  . intro past hpast
    cases prefix_concat_iff.mp hpast with
    | inl heq =>
      rw [heq]
      change written d.shutdownCalled.log <+: sourceBytes d.shutdownCalled.log
      rw [hwritten, hsource, hall]
    | inr hpast => exact h.prefixes past hpast
  . intro past hpast
    cases prefix_concat_iff.mp hpast with
    | inl heq =>
      rw [append_inj_left' heq rfl]
      exact ⟨h.ended hended, hall, hflushed⟩
    | inr hpast => exact h.closes past hpast
  . rw [hwritten]
    exact h.counted
  . rw [hwritten, hsource]
    exact h.pipe
  . intro _
    simp [Direction.shutdownCalled, h.ended hended]
  . intro _ _
    rw [hwritten, ← hflushed]
    exact flushedBytes_concat_of_ne (by simp)
  . exact h.recorded_congr hwritten rfl

variable {ε : Type}

theorem keeps_pollWrite {answer : Poll (Except ε Nat)}
    : Keeps (Inv policy recorder isUpload) (pollWrite policy recorder isUpload answer) := by
  apply Triple.of_get
  intro d h
  split
  . exact h
  split
  . exact h
  . apply inv_wrote h
    apply Poll.taken_append_drop
  . exact h
  . exact h

theorem keeps_pollFlush
    : Keeps (Inv policy recorder isUpload) (pollFlush answer) := by
  intro d h
  unfold pollFlush
  split
  . exact inv_flushed h
  . exact h
  . exact h

theorem keeps_flushIf {due : Direction → Bool} {answer : Poll (Except ε Unit)}
    : Keeps (Inv policy recorder isUpload) (flushIf due answer) := by
  apply Triple.of_get
  intro d h
  split
  . exact keeps_pollFlush d h
  . exact h

theorem keeps_pollRead {answer : Poll (Except ε Bytes)} {surplus : Nat}
    : Keeps (Inv policy recorder isUpload) (pollRead answer surplus) := by
  apply Triple.of_get
  intro d h
  split
  . exact h
  . next hopen =>
    split
    . apply inv_received h
      simp only [Bool.or_eq_true, beq_iff_eq] at hopen
      omega
    . exact h
    . exact h

theorem triple_pollShutdown {progressed : Bool} {answer : Poll (Except ε Unit)}
    : Triple
        (fun d => Inv policy recorder isUpload d ∧ d.readEof ∧ d.pending.isEmpty
          ∧ flushedBytes d.log = written d.log)
        (pollShutdown progressed answer)
        (fun _ => Inv policy recorder isUpload)
        (fun _ => Inv policy recorder isUpload) := by
  apply Triple.of_bind
  . apply Triple.of_modify _ (fun _ => Inv policy recorder isUpload)
    rintro d ⟨h, hended, hempty, hflushed⟩
    exact inv_shutdownCalled h hended hempty hflushed
  . intro _ d h
    split
    . apply h.congr
      constructor <;> rfl
    . exact h
    . exact h

theorem keeps_pollClose (progressed : Bool) (a : Answers ε)
    : Keeps (Inv policy recorder isUpload) (pollClose policy progressed a) := by
  apply Triple.of_get
  intro d h
  split
  . next hclose =>
    simp only [Bool.and_eq_true] at hclose
    rcases hclose with ⟨⟨hended, hempty⟩, _⟩
    split
    . -- Written bytes may wait for this flush, so the shutdown has to wait for it as well.
      cases a.flushAtEof with
      | pending => exact h
      | ready answer =>
        cases answer with
        | error e => exact h
        | ok _ =>
          apply triple_pollShutdown d.flushed
          exact ⟨inv_flushed h, hended, hempty, flushedBytes_concat_flushed⟩
    . next hnot =>
      simp only [Bool.or_eq_true, decide_eq_true_eq, not_or, Bool.not_eq_true] at hnot
      apply triple_pollShutdown d
      exact ⟨h, hended, hempty, h.clean hnot.left hnot.right⟩
  . exact h

theorem keeps_pollRelayDirection (a : Answers ε)
    : Keeps (Inv policy recorder isUpload) (pollRelayDirection policy recorder isUpload a) := by
  apply Triple.of_bind keeps_pollWrite
  intro wrote
  apply Triple.of_bind keeps_flushIf
  intro flushed
  apply Triple.of_bind keeps_pollRead
  rintro ⟨moved, readPending⟩
  apply Triple.of_bind keeps_flushIf
  intro coalesced
  apply keeps_pollClose

end

namespace Session

variable {ε : Type}

structure Inv (options : RelayV2Options) (recorder : Bool) (s : Session ε) : Prop where
  up : Relay.Inv options.flushPolicy recorder true s.up
  down : Relay.Inv options.flushPolicy recorder false s.down
  finished : ∀ stats, s.result = some (.ok stats) →
    s.up.done ∧ s.down.done ∧ stats = s.stats

theorem inv_start (surplus : Nat × Nat)
    : Inv options recorder (start options surplus : Session ε) where
  up := inv_new
  down := inv_new
  finished := by simp [start]

theorem inv_round {s : Session ε} {answers : Answers ε × Answers ε} (h : Inv options recorder s)
    : Inv options recorder (s.round options recorder answers) := by
  unfold round
  split
  . exact h
  . next hrunning =>
    have hup := keeps_pollRelayDirection answers.fst s.up h.up
    have hdown := keeps_pollRelayDirection answers.snd s.down h.down
    split
    . next e up hres =>
      rw [hres] at hup
      exact ⟨hup, h.down, by simp⟩
    . next moved up hres =>
      rw [hres] at hup
      split
      . next e down hres =>
        rw [hres] at hdown
        exact ⟨hup, hdown, by simp⟩
      . next moved down hres =>
        rw [hres] at hdown
        split
        . next hdone =>
          simp only [Bool.and_eq_true] at hdone
          refine ⟨hup, hdown, ?_⟩
          intro stats hstats
          simp only [Option.some.injEq, Except.ok.injEq] at hstats
          exact ⟨hdone.left, hdone.right, hstats.symm⟩
        . refine ⟨hup, hdown, ?_⟩
          intro stats hstats
          simp only [Option.isSome_iff_ne_none, Classical.not_not] at hrunning
          rw [hrunning] at hstats
          cases hstats

theorem inv_copyBidirectionalV2 {surplus : Nat × Nat} {script : List (Answers ε × Answers ε)}
    : Inv options recorder (copyBidirectionalV2 options recorder surplus script) := by
  apply List.foldlRecOn
  . apply inv_start
  . intro s hs answers _
    exact inv_round hs

end Session

theorem Inv.written_eq_of_done {policy : RelayFlushPolicy} {recorder isUpload : Bool}
    {d : Direction} (h : Inv policy recorder isUpload d) (hdone : d.done)
    : written d.log = sourceBytes d.log := by
  simp only [Direction.done, Bool.and_eq_true] at hdone
  have := h.pipe
  rw [d.pending.isEmpty_iff.mp hdone.left.right, append_nil] at this
  exact this

theorem copyBidirectionalV2_faithful {ε : Type} (options : RelayV2Options) (recorder : Bool)
    (surplus : Nat × Nat) (script : List (Answers ε × Answers ε))
    : let s := Session.copyBidirectionalV2 options recorder surplus script
      Faithful s.up
        ∧ Faithful s.down
        ∧ (recorder → traffic (s.up.recorded ++ s.down.recorded)
            = (UInt64.ofNat (written s.up.log).length, UInt64.ofNat (written s.down.log).length))
        ∧ ∀ stats, s.result = some (.ok stats) →
            written s.up.log = sourceBytes s.up.log
              ∧ written s.down.log = sourceBytes s.down.log
              ∧ stats.bytesAToB = UInt64.ofNat (written s.up.log).length
              ∧ stats.bytesBToA = UInt64.ofNat (written s.down.log).length := by
  intro s
  have h : s.Inv options recorder := Session.inv_copyBidirectionalV2
  refine ⟨h.up.toFaithful, h.down.toFaithful, ?_, ?_⟩
  . intro hrecorder
    have hup := h.up.recorded hrecorder
    have hdown := h.down.recorded hrecorder
    simp only [traffic, Direction.trafficOf, ↓reduceIte, Bool.false_eq_true, Prod.mk.injEq] at *
    simp [hup.left, hup.right, hdown.left, hdown.right]
  . intro stats hstats
    rcases h.finished stats hstats with ⟨hup, hdown, heq⟩
    rw [heq]
    refine ⟨h.up.written_eq_of_done hup, h.down.written_eq_of_done hdown, ?_, ?_⟩
    . exact h.up.counted
    . exact h.down.counted

def shortRelay : List (Answers Unit × Answers Unit) :=
  let ended : Answers Unit := ⟨.pending, .pending, .ready (.ok []), .pending, .ready (.ok ()),
    .ready (.ok ()), 0⟩
  [(⟨.pending, .pending, .ready (.ok [1, 2, 3]), .pending, .pending, .pending, 0⟩, ended),
   (⟨.ready (.ok 2), .pending, .pending, .pending, .pending, .pending, 0⟩, ended),
   (⟨.ready (.ok 1), .ready (.ok ()), .ready (.ok []), .pending, .pending, .ready (.ok ()), 0⟩,
    ended)]

theorem copyBidirectionalV2_faithful_on_short_relay
    : ∃ stats,
        (Session.copyBidirectionalV2 ⟨16, 64, .immediate⟩ true (0, 0) shortRelay).result
          = some (.ok stats)
          ∧ stats.bytesAToB = 3
          ∧ sourceBytes
              (Session.copyBidirectionalV2 ⟨16, 64, .immediate⟩ true (0, 0) shortRelay).up.log
              = [1, 2, 3] := by
  refine ⟨_, rfl, ?_, rfl⟩
  rfl

end Relay
end Blackwire
