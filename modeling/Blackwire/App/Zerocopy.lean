import Blackwire.Lib.Bytes
import Blackwire.Common.Splice

/-!
This module contains the writes with `MSG_ZEROCOPY` and the relay between two raw TCP sockets that
uses them, with its verification. What a socket has accepted is a list of segments: those of an
ordinary write hold their bytes, those of a zero-copy send refer to the buffer of the caller, and
the kernel reads them there some time before it completes the send.
-/

namespace Blackwire.Zerocopy

abbrev Errno := Nat

def enomem : Errno := 12
def einval : Errno := 22
def enoprotoopt : Errno := 92
def eopnotsupp : Errno := 95
def enobufs : Errno := 105

def defaultZerocopyMinBytes : Nat := 16 * 1024

inductive Error where
  | os (e : Errno)
  | writeZero (message : String)

inductive Pin where
  | waiting
  | read (bytes : Bytes)
  | completed (bytes : Bytes)
deriving DecidableEq

inductive Segment where
  | copied (bytes : Bytes)
  | pinned (off len : Nat) (pin : Pin)

namespace Segment

def transmit (buf : Bytes) : Segment → Segment
  | pinned off len .waiting => pinned off len (.read ((buf.drop off).take len))
  | seg => seg

def complete : Segment → Segment
  | pinned off len (.read bytes) => pinned off len (.completed bytes)
  | seg => seg

def isWaiting : Segment → Bool
  | pinned _ _ .waiting => true
  | _ => false

def isOutstanding : Segment → Bool
  | copied _ => false
  | pinned _ _ (.completed _) => false
  | pinned _ _ _ => true

end Segment

structure Socket where
  queue : List Segment
  errorQueue : List Nat

namespace Socket

def new : Socket := ⟨[], []⟩

variable (s : Socket)

def push (seg : Segment) : Socket :=
  { s with queue := s.queue ++ [seg] }

def transmit (s : Socket) (buf : Bytes) (i : Nat) : Socket :=
  { s with queue := s.queue.modify i (.transmit buf) }

def complete (s : Socket) (i : Nat) : Socket :=
  ⟨s.queue.modify i .complete, s.errorQueue ++ [i]⟩

-- The loop reads with `MSG_DONTWAIT` what the queue has at the time.
def drainZerocopyErrorQueue : Socket :=
  { s with errorQueue := [] }

def canTransmit (i : Nat) : Bool :=
  match s.queue[i]? with
  | some (.pinned _ _ .waiting) => true
  | _ => false

def canComplete (i : Nat) : Bool :=
  match s.queue[i]? with
  | some (.pinned _ _ (.read _)) => true
  | _ => false

def waiting : Bool :=
  s.queue.any (·.isWaiting)

def outstanding : Bool :=
  s.queue.any (·.isOutstanding)

def receivedOf : List Segment → Bytes
  | [] => []
  | .copied bytes :: queue => bytes ++ receivedOf queue
  | .pinned _ _ .waiting :: _ => []
  | .pinned _ _ (.read bytes) :: queue => bytes ++ receivedOf queue
  | .pinned _ _ (.completed bytes) :: queue => bytes ++ receivedOf queue

def received : Bytes :=
  receivedOf s.queue

end Socket

def isUnsupported (e : Errno) : Bool :=
  e = einval || e = enoprotoopt || e = eopnotsupp

def isPressureError (e : Errno) : Bool :=
  e = enobufs || e = enomem

def normalizedMinBytes (minBytes : Nat) : Nat :=
  if minBytes = 0 then defaultZerocopyMinBytes else minBytes

def enableTcpZerocopy (value : Except Errno Unit) : Except Error Bool :=
  match value with
  | .ok () => .ok true
  | .error e => if isUnsupported e then .ok false else .error (.os e)

structure ZeroCopyWriteReport where
  bytes : Nat
  usedZerocopy : Bool
  fallbackUsed : Bool

inductive Writer where
  | sending (written : Nat)
  | writing (written : Nat) (report : ZeroCopyWriteReport)
  | done (result : Except Error ZeroCopyWriteReport)

inductive SendResult where
  | sent (n : Nat)
  | wouldBlock
  | failed (e : Errno)

inductive Call where
  | send (result : SendResult)
  | write (result : Except Errno Nat)
  | unwritable (e : Errno)

namespace Writer

def writeAll (len written : Nat) (report : ZeroCopyWriteReport) : Writer :=
  if written < len then .writing written report else .done (.ok report)

def start (zerocopyEnabled : Bool) (minBytes len : Nat) : Writer :=
  let minBytes := max minBytes 1
  if !zerocopyEnabled || len < minBytes then
    writeAll len 0 ⟨len, false, false⟩
  else
    .sending 0

def send (len written : Nat) (socket : Socket) (result : SendResult) : Writer × Socket :=
  match result with
  | .sent 0 => (.done (.error (.writeZero "MSG_ZEROCOPY send returned zero")), socket)
  | .sent n =>
    let socket := (socket.push (.pinned written n .waiting)).drainZerocopyErrorQueue
    if written + n < len then
      (.sending (written + n), socket)
    else
      (.done (.ok ⟨len, true, false⟩), socket.drainZerocopyErrorQueue)
  | .wouldBlock => (.sending written, socket)
  | .failed e =>
    if isUnsupported e then
      (writeAll len written ⟨len, 0 < written, true⟩, socket)
    else if isPressureError e then
      (writeAll len written ⟨len, 0 < written, true⟩, socket)
    else
      (.done (.error (.os e)), socket)

def write (buf : Bytes) (len written : Nat) (report : ZeroCopyWriteReport) (socket : Socket)
    (result : Except Errno Nat)
    : Writer × Socket :=
  match result with
  | .ok 0 => (.done (.error (.writeZero "write zero")), socket)
  | .ok n =>
    (writeAll len (written + n) report, socket.push (.copied ((buf.drop written).take n)))
  | .error e => (.done (.error (.os e)), socket)

def step (w : Writer) (buf : Bytes) (len : Nat) (socket : Socket) (call : Call) : Writer × Socket :=
  match w, call with
  | .sending written, .send result => send len written socket result
  | .sending _, .unwritable e => (.done (.error (.os e)), socket)
  | .writing written report, .write result => write buf len written report socket result
  | w, _ => (w, socket)

def enabled (w : Writer) (len : Nat) (call : Call) : Bool :=
  match w, call with
  | .sending written, .send (.sent n) => written + n ≤ len
  | .sending _, .send _ => true
  | .sending _, .unwritable _ => true
  | .writing written _, .write (.ok n) => written + n ≤ len
  | .writing _ _, .write (.error _) => true
  | _, _ => false

end Writer

structure WriteAll where
  writer : Writer
  socket : Socket

inductive Event where
  | call (call : Call)
  | transmit (i : Nat)
  | complete (i : Nat)

namespace WriteAll

def step (buf : Bytes) (s : WriteAll) (e : Event) : WriteAll :=
  match e with
  | .call call =>
    let (writer, socket) := s.writer.step buf buf.length s.socket call
    ⟨writer, socket⟩
  | .transmit i => { s with socket := s.socket.transmit buf i }
  | .complete i => { s with socket := s.socket.complete i }

def enabled (buf : Bytes) (s : WriteAll) (e : Event) : Bool :=
  match e with
  | .call call => s.writer.enabled buf.length call
  | .transmit i => s.socket.canTransmit i
  | .complete i => s.socket.canComplete i

end WriteAll

open Splice (Side)

inductive FastZerocopyPolicy where
  | disabled
  | bulk
  | always
deriving DecidableEq

structure LinuxPolicy where
  zerocopy : FastZerocopyPolicy
  zerocopyMinBytes : Nat

def adaptiveCopyBufferBytes : Nat := 64 * 1024

namespace LinuxPolicy

def enableZerocopy (policy : LinuxPolicy) (value : Except Errno Unit) : Except Error Bool :=
  match policy.zerocopy with
  | .disabled => .ok false
  | _ => enableTcpZerocopy value

def minBytes (policy : LinuxPolicy) : Nat :=
  match policy.zerocopy with
  | .disabled => 2 ^ 64 - 1
  | .bulk => normalizedMinBytes policy.zerocopyMinBytes
  | .always => 1

end LinuxPolicy

structure Direction where
  taken : Bytes
  buf : Bytes
  socket : Socket
  zerocopyEnabled : Bool
  eof : Bool
  count : UInt64

inductive Stage where
  | selecting
  | writing (side : Side) (len : Nat) (writer : Writer)
  | returned (result : Except Error (UInt64 × UInt64))

structure Relay where
  minBytes : Nat
  dirs : Side → Direction
  stage : Stage

inductive RelayEvent where
  | read (side : Side) (bytes : Bytes)
  | call (call : Call)
  | transmit (side : Side) (i : Nat)
  | complete (side : Side) (i : Nat)
  | failed (e : Errno)
  | reused (side : Side) (buf : Bytes)

namespace Relay

def setDirection (s : Relay) (side : Side) (d : Direction) : Relay :=
  { s with dirs := Function.update s.dirs side d }

def head (s : Relay) : Relay :=
  if (s.dirs .up).eof && (s.dirs .down).eof then
    { s with stage := .returned (.ok ((s.dirs .up).count, (s.dirs .down).count)) }
  else
    { s with stage := .selecting }

def start (policy : LinuxPolicy) (values : Side → Except Errno Unit) (prefixed : Side → UInt64)
    (bufs : Side → Bytes)
    : Except Error Relay := do
  let inboundZerocopy ← policy.enableZerocopy (values .down)
  let outboundZerocopy ← policy.enableZerocopy (values .up)
  let zerocopyEnabled (side : Side) := if side = .up then outboundZerocopy else inboundZerocopy
  let dirs side := ⟨[], bufs side, .new, zerocopyEnabled side, false, prefixed side⟩
  return ⟨policy.minBytes, dirs, .selecting⟩

def read (s : Relay) (side : Side) (bytes : Bytes) : Relay :=
  let d := s.dirs side
  if bytes.isEmpty then
    (s.setDirection side { d with eof := true }).head
  else
    { s.setDirection side { d with
        taken := d.taken ++ bytes
        buf := bytes ++ d.buf.drop bytes.length } with
      stage := .writing side bytes.length (.start d.zerocopyEnabled s.minBytes bytes.length) }

def call (s : Relay) (side : Side) (len : Nat) (writer : Writer) (call : Call) : Relay :=
  let d := s.dirs side
  let (writer, socket) := writer.step d.buf len d.socket call
  match writer with
  | .done (.ok report) =>
    (s.setDirection side
      { d with socket := socket, count := d.count + UInt64.ofNat report.bytes }).head
  | .done (.error e) =>
    { s.setDirection side { d with socket := socket } with stage := .returned (.error e) }
  | writer =>
    { s.setDirection side { d with socket := socket } with stage := .writing side len writer }

def step (s : Relay) (e : RelayEvent) : Relay :=
  match e with
  | .read side bytes => s.read side bytes
  | .call call =>
    match s.stage with
    | .writing side len writer => s.call side len writer call
    | _ => s
  | .transmit side i =>
    let d := s.dirs side
    s.setDirection side { d with socket := d.socket.transmit d.buf i }
  | .complete side i =>
    let d := s.dirs side
    s.setDirection side { d with socket := d.socket.complete i }
  | .failed e => { s with stage := .returned (.error (.os e)) }
  | .reused side buf => s.setDirection side { s.dirs side with buf := buf }

def isSelecting (stage : Stage) : Bool :=
  match stage with
  | .selecting => true
  | _ => false

def isSettled (stage : Stage) : Bool :=
  match stage with
  | .selecting => true
  | .returned (.ok _) => true
  | _ => false

def isReturned (stage : Stage) : Bool :=
  match stage with
  | .returned _ => true
  | _ => false

def enabled (s : Relay) (e : RelayEvent) : Bool :=
  match e with
  | .read side bytes =>
    isSelecting s.stage && !(s.dirs side).eof && bytes.length ≤ adaptiveCopyBufferBytes
  | .call call =>
    match s.stage with
    | .writing _ len writer => writer.enabled len call
    | _ => false
  | .transmit side i => (s.dirs side).socket.canTransmit i
  | .complete side i => (s.dirs side).socket.canComplete i
  | .failed _ => isSelecting s.stage
  | .reused _ _ => isReturned s.stage

end Relay

open List Machine

def Segment.content (buf : Bytes) : Segment → Bytes
  | copied bytes => bytes
  | pinned off len .waiting => (buf.drop off).take len
  | pinned _ _ (.read bytes) => bytes
  | pinned _ _ (.completed bytes) => bytes

theorem Segment.content_transmit {buf : Bytes} (seg : Segment)
    : (seg.transmit buf).content buf = seg.content buf := by
  unfold transmit
  split <;> rfl

theorem Segment.content_complete {buf : Bytes} (seg : Segment)
    : seg.complete.content buf = seg.content buf := by
  unfold complete
  split <;> rfl

theorem Segment.content_congr (buf buf' : Bytes) {seg : Segment} (h : seg.isOutstanding = false)
    : seg.content buf = seg.content buf' := by
  cases seg with
  | copied bytes => rfl
  | pinned off len pin =>
    cases pin with
    | waiting => simp [isOutstanding] at h
    | read bytes => rfl
    | completed bytes => rfl

theorem flatMap_modify {α β : Type} (l : List α) (i : Nat) {g : α → α} {f : α → List β}
    (h : ∀ x, f (g x) = f x)
    : (l.modify i g).flatMap f = l.flatMap f := by
  have hmap : (l.modify i g).map f = l.map f := by
    apply ext_getElem
    . simp
    . intro j hj hj'
      simp only [getElem_map, getElem_modify]
      split
      . rw [h]
      . rfl
  rw [flatMap_def, hmap, flatMap_def]

namespace Socket

def queued (s : Socket) (buf : Bytes) : Bytes :=
  s.queue.flatMap (·.content buf)

variable (s : Socket)

theorem queued_push (seg : Segment)
    : (s.push seg).queued buf = s.queued buf ++ seg.content buf := by
  simp [queued, push]

theorem queued_transmit
    : (s.transmit buf i).queued buf = s.queued buf := by
  apply flatMap_modify
  exact Segment.content_transmit

theorem queued_complete
    : (s.complete i).queued buf = s.queued buf := by
  apply flatMap_modify
  exact Segment.content_complete

variable (buf) in
theorem queued_congr {s : Socket} (buf' : Bytes) (h : s.outstanding = false)
    : s.queued buf = s.queued buf' := by
  unfold outstanding at h
  rw [any_eq_false] at h
  unfold queued
  rw [flatMap_def, flatMap_def]
  congr 1
  apply map_congr_left
  intro seg hseg
  apply Segment.content_congr
  simpa using h seg hseg

theorem received_isPrefix : s.received <+: s.queued buf := by
  unfold received queued
  induction s.queue with
  | nil => exact prefix_rfl
  | cons seg queue ih =>
    cases seg with
    | copied bytes => exact (prefix_append_right_inj bytes).mpr ih
    | pinned off len pin =>
      cases pin with
      | waiting => exact nil_prefix
      | read bytes => exact (prefix_append_right_inj bytes).mpr ih
      | completed bytes => exact (prefix_append_right_inj bytes).mpr ih

theorem received_eq (h : s.waiting = false)
    : s.received = s.queued buf := by
  unfold waiting at h
  unfold received queued
  induction hqueue : s.queue generalizing s with
  | nil => rfl
  | cons seg queue ih =>
    rw [hqueue, any_cons, Bool.or_eq_false_iff] at h
    rw [flatMap_cons, ← ih ⟨queue, []⟩ h.right rfl]
    cases seg with
    | copied bytes => rfl
    | pinned off len pin =>
      cases pin with
      | waiting => cases h.left
      | read bytes => rfl
      | completed bytes => rfl

@[simp]
theorem outstanding_push (seg : Segment)
    : (s.push seg).outstanding = (s.outstanding || seg.isOutstanding) := by
  simp [outstanding, push]

theorem outstanding_of_canTransmit (h : s.canTransmit i)
    : s.outstanding = true := by
  unfold canTransmit at h
  split at h
  next hi => exact any_eq_true.mpr ⟨_, mem_of_getElem? hi, rfl⟩
  next => cases h

theorem outstanding_of_canComplete (h : s.canComplete i)
    : s.outstanding = true := by
  unfold canComplete at h
  split at h
  next hi => exact any_eq_true.mpr ⟨_, mem_of_getElem? hi, rfl⟩
  next => cases h

end Socket

namespace Writer

def Backs (taken buf : Bytes) (len : Nat) (socket : Socket) : Writer → Prop
  | sending written =>
    written ≤ len ∧ socket.queued buf ++ (buf.take len).drop written = taken
  | writing written _ =>
    written ≤ len ∧ socket.queued buf ++ (buf.take len).drop written = taken
  | done (.ok _) => socket.queued buf = taken
  | done (.error _) => socket.queued buf <+: taken

section

variable {taken buf : Bytes} {socket : Socket}

theorem Backs.congr {w : Writer} {socket' : Socket} (h : w.Backs taken buf len socket)
    (hqueued : socket.queued buf = socket'.queued buf)
    : w.Backs taken buf len socket' := by
  cases w with
  | sending written =>
    rw [Backs, ← hqueued]
    exact h
  | writing written report =>
    rw [Backs, ← hqueued]
    exact h
  | done result =>
    cases result with
    | ok report => exact hqueued.symm.trans h
    | error e =>
      rw [Backs, ← hqueued]
      exact h

theorem Backs.isPrefix {w : Writer} (h : w.Backs taken buf len socket)
    : socket.queued buf <+: taken := by
  cases w with
  | sending written =>
    rw [← h.right]
    apply prefix_append
  | writing written report =>
    rw [← h.right]
    apply prefix_append
  | done result =>
    cases result with
    | ok report =>
      have hqueued : socket.queued buf = taken := h
      exact hqueued ▸ prefix_rfl
    | error e => exact h

theorem drop_take_split {n : Nat} (hn : written + n ≤ len)
    : (buf.take len).drop written
        = (buf.drop written).take n ++ (buf.take len).drop (written + n) := by
  rw [drop_take, drop_take, ← drop_drop, ← take_add]
  congr 1
  omega

theorem backs_writeAll {report : ZeroCopyWriteReport} (hle : written ≤ len)
    (htaken : socket.queued buf ++ (buf.take len).drop written = taken)
    : (writeAll len written report).Backs taken buf len socket := by
  unfold writeAll
  split
  next => exact ⟨hle, htaken⟩
  next hge =>
    rw [drop_eq_nil_of_le, append_nil] at htaken
    . exact htaken
    . rw [length_take]
      omega

theorem backs_push (seg : Segment) (n : Nat) (hseg : seg.content buf = (buf.drop written).take n)
    (hn : written + n ≤ len) (htaken : socket.queued buf ++ (buf.take len).drop written = taken)
    : (socket.push seg).queued buf ++ (buf.take len).drop (written + n) = taken := by
  rw [Socket.queued_push, hseg, append_assoc, ← drop_take_split hn]
  exact htaken

theorem backs_send {result : SendResult} (hle : written ≤ len)
    (htaken : socket.queued buf ++ (buf.take len).drop written = taken)
    (he : (sending written).enabled len (.send result))
    : (send len written socket result).fst.Backs taken buf len
        (send len written socket result).snd := by
  unfold send
  split
  next =>
    rw [← htaken]
    apply prefix_append
  next n _ =>
    have hn : written + n ≤ len := by simpa [enabled] using he
    have hpush := backs_push (.pinned written n .waiting) n rfl hn htaken
    split
    next => exact ⟨hn, hpush⟩
    next hge =>
      rw [drop_eq_nil_of_le, append_nil] at hpush
      . exact hpush
      . rw [length_take]
        omega
  next => exact ⟨hle, htaken⟩
  next =>
    split
    next => exact backs_writeAll hle htaken
    split
    next => exact backs_writeAll hle htaken
    next =>
      rw [← htaken]
      apply prefix_append

theorem backs_write {report : ZeroCopyWriteReport} {result : Except Errno Nat}
    (htaken : socket.queued buf ++ (buf.take len).drop written = taken)
    (he : (writing written report).enabled len (.write result))
    : (write buf len written report socket result).fst.Backs taken buf len
        (write buf len written report socket result).snd := by
  unfold write
  split
  next =>
    rw [← htaken]
    apply prefix_append
  next n _ =>
    have hn : written + n ≤ len := by simpa [enabled] using he
    exact backs_writeAll hn (backs_push (.copied _) n rfl hn htaken)
  next =>
    rw [← htaken]
    apply prefix_append

theorem backs_step {w : Writer} {call : Call} (h : w.Backs taken buf len socket)
    (he : w.enabled len call)
    : (w.step buf len socket call).fst.Backs taken buf len (w.step buf len socket call).snd := by
  unfold step
  split
  next written result => exact backs_send h.left h.right he
  next written e =>
    rw [← h.right]
    apply prefix_append
  next written report result => exact backs_write h.right he
  next => exact h

end

def copies : Writer → Bool
  | sending _ => false
  | _ => true

theorem copies_start {zerocopyEnabled : Bool} {minBytes len : Nat}
    : (start zerocopyEnabled minBytes len).copies
        ↔ zerocopyEnabled = false ∨ len < max minBytes 1 := by
  unfold start writeAll
  dsimp only
  split
  next h =>
    have hcond : zerocopyEnabled = false ∨ len < max minBytes 1 := by simpa using h
    simp only [hcond, iff_true]
    split <;> rfl
  next h =>
    have hcond : ¬(zerocopyEnabled = false ∨ len < max minBytes 1) := by simpa using h
    simp only [hcond, copies, Bool.false_eq_true]

theorem copies_step {w : Writer} (buf : Bytes) (len : Nat) (socket : Socket) (call : Call)
    (h : w.copies)
    : (w.step buf len socket call).fst.copies
        ∧ (w.step buf len socket call).snd.outstanding = socket.outstanding := by
  unfold step
  split
  next => cases h
  next => cases h
  next written report result =>
    unfold write
    split
    next => exact ⟨rfl, rfl⟩
    next =>
      refine ⟨?_, by simp [Segment.isOutstanding]⟩
      unfold writeAll
      split <;> rfl
    next => exact ⟨rfl, rfl⟩
  next => exact ⟨h, rfl⟩

end Writer

namespace WriteAll

structure Owned (s : WriteAll) : Prop where
  copies : s.writer.copies
  owned : s.socket.outstanding = false

theorem owned_step {buf : Bytes} {s : WriteAll} {e : Event} (h : s.Owned) (he : enabled buf s e)
    : (s.step buf e).Owned := by
  cases e with
  | call call =>
    have hstep := s.writer.copies_step buf buf.length s.socket call h.copies
    exact ⟨hstep.left, hstep.right.trans h.owned⟩
  | transmit i =>
    have := s.socket.outstanding_of_canTransmit he
    rw [h.owned] at this
    cases this
  | complete i =>
    have := s.socket.outstanding_of_canComplete he
    rw [h.owned] at this
    cases this

theorem returns_outstanding {zerocopyEnabled : Bool} {minBytes : Nat} {buf : Bytes}
    (h : ¬(zerocopyEnabled = false ∨ buf.length < max minBytes 1))
    : ∃ s report, Reach (step buf) (fun s e => enabled buf s e)
        ⟨.start zerocopyEnabled minBytes buf.length, .new⟩ s
        ∧ s.writer = .done (.ok report)
        ∧ s.socket.outstanding = true := by
  have hstart : Writer.start zerocopyEnabled minBytes buf.length = .sending 0 := by
    exact if_neg (by simpa using h)
  have hlen : ∃ n, buf.length = n + 1 := Nat.exists_eq_add_one.mpr (by omega)
  rcases hlen with ⟨n, hn⟩
  have hstep : step buf ⟨.sending 0, .new⟩ (.call (.send (.sent buf.length)))
      = ⟨.done (.ok ⟨buf.length, true, false⟩), ⟨[.pinned 0 buf.length .waiting], []⟩⟩ := by
    simp [step, Writer.step, Writer.send, hn, Socket.new, Socket.push,
      Socket.drainZerocopyErrorQueue]
  refine ⟨step buf ⟨.sending 0, .new⟩ (.call (.send (.sent buf.length))),
    ⟨buf.length, true, false⟩, ?_, ?_, ?_⟩
  . rw [hstart]
    apply Reach.step _ _ .start
    simp [enabled, Writer.enabled]
  . rw [hstep]
  . rw [hstep]
    rfl

end WriteAll

def Direction.Whole (d : Direction) : Prop :=
  d.socket.queued d.buf = d.taken

theorem Direction.Whole.isPrefix {d : Direction} (h : d.Whole)
    : d.socket.queued d.buf <+: d.taken := by
  have hqueued : d.socket.queued d.buf = d.taken := h
  exact hqueued ▸ prefix_rfl

namespace Relay

def StageHolds (dirs : Side → Direction) : Stage → Prop
  | .selecting => ∀ side, (dirs side).Whole
  | .writing side len w =>
    w.Backs (dirs side).taken (dirs side).buf len (dirs side).socket ∧ (dirs side.other).Whole
  | .returned (.ok _) => ∀ side, (dirs side).Whole
  | .returned (.error _) => ∀ side, (dirs side).socket.queued (dirs side).buf <+: (dirs side).taken

def Inv (s : Relay) : Prop :=
  StageHolds s.dirs s.stage

variable {s : Relay}

theorem inv_head (h : ∀ side, (s.dirs side).Whole) : s.head.Inv := by
  unfold head
  split
  . exact h
  . exact h

theorem inv_start {policy : LinuxPolicy} {values : Side → Except Errno Unit}
    {prefixed : Side → UInt64} {bufs : Side → Bytes}
    (h : start policy values prefixed bufs = .ok s)
    : s.Inv := by
  simp only [start, bind, Except.bind] at h
  split at h
  . cases h
  split at h
  . cases h
  . cases h
    exact fun _ => rfl

theorem backs_start (zerocopyEnabled : Bool) (minBytes : Nat) {taken bytes rest : Bytes}
    {socket : Socket} (h : socket.queued (bytes ++ rest) = taken)
    : (Writer.start zerocopyEnabled minBytes bytes.length).Backs (taken ++ bytes) (bytes ++ rest)
        bytes.length socket := by
  have htaken : socket.queued (bytes ++ rest)
      ++ ((bytes ++ rest).take bytes.length).drop 0 = taken ++ bytes := by
    rw [h, drop_zero, take_left]
  unfold Writer.start
  dsimp only
  split
  . exact Writer.backs_writeAll (Nat.zero_le _) htaken
  . exact ⟨Nat.zero_le _, htaken⟩

theorem inv_read {bytes : Bytes} (h : ∀ side, (s.dirs side).Whole)
    (howned : bytes.isEmpty || !(s.dirs side).socket.outstanding)
    : (s.read side bytes).Inv := by
  unfold read
  split
  next =>
    apply inv_head
    exact Splice.forall_update (p := fun _ => Direction.Whole) (h side) h
  next hempty =>
    have howned : (s.dirs side).socket.outstanding = false := by
      simpa [hempty] using howned
    refine ⟨?_, ?_⟩
    . simp only [setDirection, Function.update_self]
      apply backs_start
      rw [Socket.queued_congr _ (s.dirs side).buf howned]
      exact h side
    . simp only [setDirection, Function.update_of_ne side.other_ne]
      exact h side.other

theorem inv_call {len : Nat} {writer : Writer} {c : Call}
    (h : writer.Backs (s.dirs side).taken (s.dirs side).buf len (s.dirs side).socket)
    (hother : (s.dirs side.other).Whole) (he : writer.enabled len c)
    : (s.call side len writer c).Inv := by
  have hbacks := Writer.backs_step h he
  unfold call
  dsimp only
  split
  next report hdone =>
    rw [hdone] at hbacks
    apply inv_head
    exact Splice.forall_update_of_other (p := fun _ => Direction.Whole) hbacks hother
  next e hdone =>
    rw [hdone] at hbacks
    apply Splice.forall_update_of_other (p := fun _ (d : Direction) =>
      d.socket.queued d.buf <+: d.taken)
    . exact hbacks
    . exact hother.isPrefix
  next =>
    refine ⟨?_, ?_⟩
    . simp only [setDirection, Function.update_self]
      exact hbacks
    . simp only [setDirection, Function.update_of_ne side.other_ne]
      exact hother

theorem inv_kernel {socket : Socket} (h : s.Inv)
    (hqueued : socket.queued (s.dirs side).buf = (s.dirs side).socket.queued (s.dirs side).buf)
    : (s.setDirection side { s.dirs side with socket := socket }).Inv := by
  have hwhole (hw : (s.dirs side).Whole)
      : { s.dirs side with socket := socket : Direction }.Whole := hqueued.trans hw
  unfold Inv setDirection at *
  dsimp only
  cases hstage : s.stage with
  | selecting =>
    rw [hstage] at h
    exact Splice.forall_update (p := fun _ => Direction.Whole) (hwhole (h side)) h
  | returned result =>
    rw [hstage] at h
    cases result with
    | ok counts => exact Splice.forall_update (p := fun _ => Direction.Whole) (hwhole (h side)) h
    | error e =>
      apply Splice.forall_update (p := fun _ (d : Direction) => d.socket.queued d.buf <+: d.taken)
      . dsimp only
        rw [hqueued]
        exact h side
      . exact h
  | writing side' len w =>
    rw [hstage] at h
    cases side'.eq_or_eq_other side with
    | inl heq =>
      subst heq
      refine ⟨?_, ?_⟩
      . rw [Function.update_self]
        exact h.left.congr hqueued.symm
      . rw [Function.update_of_ne side.other_ne]
        exact h.right
    | inr heq =>
      subst heq
      refine ⟨?_, ?_⟩
      . rw [Function.update_of_ne side'.other_ne.symm]
        exact h.left
      . rw [Function.update_self]
        exact hwhole h.right

theorem inv_reused (buf : Bytes) (h : s.Inv)
    (hreturned : isReturned s.stage) (howned : (s.dirs side).socket.outstanding = false)
    : (s.setDirection side { s.dirs side with buf := buf }).Inv := by
  have hqueued := Socket.queued_congr buf (s.dirs side).buf howned
  unfold Inv setDirection at *
  cases hstage : s.stage with
  | selecting => simp [hstage, isReturned] at hreturned
  | writing side' len w => simp [hstage, isReturned] at hreturned
  | returned result =>
    rw [hstage] at h
    cases result with
    | ok counts =>
      exact Splice.forall_update (p := fun _ => Direction.Whole) (hqueued.trans (h side)) h
    | error e =>
      apply Splice.forall_update (p := fun _ (d : Direction) => d.socket.queued d.buf <+: d.taken)
      . dsimp only
        rw [hqueued]
        exact h side
      . exact h

theorem whole_of_isSelecting (h : s.Inv) (hs : isSelecting s.stage)
    : ∀ side, (s.dirs side).Whole := by
  unfold isSelecting at hs
  split at hs
  next hstage =>
    unfold Inv at h
    rw [hstage] at h
    exact h
  next => cases hs

/--
If the step puts something into a buffer, nothing that was sent from it is outstanding.
-/
def refillsOwned (s : Relay) (e : RelayEvent) : Bool :=
  match e with
  | .read side bytes => bytes.isEmpty || !(s.dirs side).socket.outstanding
  | .reused side _ => !(s.dirs side).socket.outstanding
  | _ => true

theorem inv_step {e : RelayEvent} (h : s.Inv) (he : enabled s e) (howned : refillsOwned s e)
    : (s.step e).Inv := by
  cases e with
  | read side bytes =>
    simp only [enabled, Bool.and_eq_true] at he
    exact inv_read (whole_of_isSelecting h he.left.left) howned
  | call c =>
    unfold enabled at he
    unfold step
    cases hstage : s.stage with
    | selecting => simp [hstage] at he
    | returned result => simp [hstage] at he
    | writing side len writer =>
      unfold Inv at h
      rw [hstage] at h
      exact inv_call h.left h.right (by simpa [hstage] using he)
  | transmit side i => exact inv_kernel h (Socket.queued_transmit _)
  | complete side i => exact inv_kernel h (Socket.queued_complete _)
  | failed e =>
    intro side
    exact (whole_of_isSelecting h he side).isPrefix
  | reused side buf => exact inv_reused buf h he (by simpa [refillsOwned] using howned)

theorem queued_isPrefix (h : s.Inv) {side : Side}
    : (s.dirs side).socket.queued (s.dirs side).buf <+: (s.dirs side).taken := by
  unfold Inv at h
  cases hstage : s.stage with
  | selecting =>
    rw [hstage] at h
    exact (h side).isPrefix
  | returned result =>
    rw [hstage] at h
    cases result with
    | ok counts => exact (h side).isPrefix
    | error e => exact h side
  | writing side' len w =>
    rw [hstage] at h
    cases side'.eq_or_eq_other side with
    | inl heq =>
      rw [heq]
      exact h.left.isPrefix
    | inr heq =>
      rw [heq]
      exact h.right.isPrefix

theorem whole_of_isSettled (h : s.Inv) (hs : isSettled s.stage) {side : Side}
    : (s.dirs side).Whole := by
  unfold Inv at h
  unfold isSettled at hs
  split at hs
  next hstage =>
    rw [hstage] at h
    exact h side
  next hstage =>
    rw [hstage] at h
    exact h side
  next => cases hs

end Relay

theorem zerocopy_buffer_ownership (zerocopyEnabled : Bool) (minBytes : Nat) (buf : Bytes)
    : ((∀ socket s, socket.outstanding = false →
          Reach (WriteAll.step buf) (fun s e => WriteAll.enabled buf s e)
            ⟨.start zerocopyEnabled minBytes buf.length, socket⟩ s →
          ∀ report, s.writer = .done (.ok report) → s.socket.outstanding = false)
        ↔ zerocopyEnabled = false ∨ buf.length < max minBytes 1)
      ∧ ∀ policy values prefixed bufs r s, Relay.start policy values prefixed bufs = .ok r →
          Reach Relay.step (fun s e => s.enabled e ∧ s.refillsOwned e) r s →
          ∀ side, (s.dirs side).socket.received <+: (s.dirs side).taken
            ∧ (Relay.isSettled s.stage → (s.dirs side).socket.waiting = false →
                (s.dirs side).socket.received = (s.dirs side).taken) := by
  refine ⟨⟨?_, ?_⟩, ?_⟩
  . intro h
    by_contra hcond
    rcases WriteAll.returns_outstanding hcond
      with ⟨s, report, hreach, hdone, hout⟩
    rw [h .new s rfl hreach report hdone] at hout
    cases hout
  . intro hcond socket s hsocket hreach report _
    have howned := Reach.invariant WriteAll.Owned _ s
      ⟨Writer.copies_start.mpr hcond, hsocket⟩
      (fun t e => WriteAll.owned_step) hreach
    exact howned.owned
  . intro policy values prefixed bufs r s hr hreach side
    have hinv := Reach.invariant Relay.Inv _ s
      (Relay.inv_start hr)
      (fun t e ht he => Relay.inv_step ht he.left he.right) hreach
    refine ⟨?_, ?_⟩
    . exact (Socket.received_isPrefix _).trans (Relay.queued_isPrefix hinv)
    . intro hsettled hwaiting
      rw [Socket.received_eq _ hwaiting]
      exact Relay.whole_of_isSettled hinv hsettled

def unhurried : List RelayEvent :=
  [.read .up [1], .call (.send (.sent 1)), .transmit .up 0, .complete .up 0, .read .up [2],
    .call (.send (.sent 1)), .transmit .up 1]

theorem zerocopy_buffer_ownership_unhurried
    : ∃ r, Relay.start ⟨.always, 0⟩ (fun _ => .ok ()) (fun _ => 0) (fun _ => [0]) = .ok r
        ∧ ((unhurried.foldl Relay.step r).dirs .up).socket.received
          = ((unhurried.foldl Relay.step r).dirs .up).taken
        ∧ ((unhurried.foldl Relay.step r).dirs .up).taken = [1, 2] := by
  refine ⟨_, rfl, ?_, by decide⟩
  apply ((zerocopy_buffer_ownership true 1 []).right ⟨.always, 0⟩ (fun _ => .ok ()) (fun _ => 0)
    (fun _ => [0]) _ _ rfl _ .up).right
  . decide
  . decide
  . apply Reach.foldl _ _ .start
    decide

-- The second chunk is read before the kernel has looked at the first one.
def overtaken : List RelayEvent :=
  [.read .up [1], .call (.send (.sent 1)), .read .up [2], .transmit .up 0]

theorem zerocopy_buffer_overtaken
    : ∃ r, Relay.start ⟨.always, 0⟩ (fun _ => .ok ()) (fun _ => 0) (fun _ => [0]) = .ok r
        ∧ Allowed Relay.step (fun s e => s.enabled e) r overtaken
        ∧ (Relay.isSelecting ((overtaken.take 2).foldl Relay.step r).stage
          ∧ (((overtaken.take 2).foldl Relay.step r).dirs .up).socket.outstanding)
        ∧ ((overtaken.foldl Relay.step r).dirs .up).socket.received = [2]
        ∧ ((overtaken.foldl Relay.step r).dirs .up).taken = [1, 2] := by
  refine ⟨_, rfl, ?_⟩
  decide

end Blackwire.Zerocopy
