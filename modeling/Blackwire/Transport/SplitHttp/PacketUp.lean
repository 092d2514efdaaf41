import Blackwire.Lib.Bytes
import Blackwire.Lib.Heap
import Blackwire.Lib.Machine

/-!
This module contains the upload queue of the packet-up mode of SplitHTTP, with its verification. The
reader of a queue takes its lock without waiting, so a push can come between any two of its
attempts.
-/

namespace Blackwire.PacketUp

def defaultMaxBuffered : Nat := 64
def defaultMaxBufferedBytes : Nat := 8 * 1024 * 1024

inductive ErrorKind where
  | unexpectedEof
  | brokenPipe
  | other
deriving DecidableEq

structure IoError where
  kind : ErrorKind
  message : Option String

structure UploadPacket where
  seq : Nat
  payload : Bytes
deriving DecidableEq

namespace UploadPacket

def Le (p q : UploadPacket) : Prop :=
  p.seq < q.seq ∨ p.seq = q.seq ∧ p.payload ≤ q.payload

instance : DecidableRel Le := fun p q =>
  inferInstanceAs (Decidable (p.seq < q.seq ∨ p.seq = q.seq ∧ p.payload ≤ q.payload))

instance : Std.Total Le where
  total p q := by
    rcases Nat.lt_trichotomy p.seq q.seq with h | h | h
    . exact .inl (.inl h)
    . rcases List.le_total p.payload q.payload with hle | hle
      . exact .inl (.inr ⟨h, hle⟩)
      . exact .inr (.inr ⟨h.symm, hle⟩)
    . exact .inr (.inl h)

instance : IsTrans UploadPacket Le where
  trans p q r hpq hqr := by
    unfold Le at *
    rcases hpq with hpq | ⟨hpq, hle⟩
    . omega
    . rcases hqr with hqr | ⟨hqr, hle'⟩
      . omega
      . exact .inr ⟨hpq.trans hqr, List.le_trans hle hle'⟩

end UploadPacket

structure QueueState where
  nextSeq : Nat
  heap : Heap UploadPacket.Le
  pending : Bytes
  closed : Bool
  maxBuffered : Nat
  bufferedBytes : Nat
  maxBufferedBytes : Nat

namespace QueueState

def new (maxBuffered : Nat) : QueueState where
  nextSeq := 0
  heap := .empty
  pending := []
  closed := false
  maxBuffered := if maxBuffered = 0 then defaultMaxBuffered else maxBuffered
  bufferedBytes := 0
  maxBufferedBytes := defaultMaxBufferedBytes

-- Every round of the loop takes a packet out of the heap, or it is the last one.
def fillLoop : Nat → QueueState → QueueState × Except IoError Unit
  | 0, q => (q, .ok ())
  | fuel + 1, q =>
    match q.heap.pop with
    | some (packet, heap) =>
      if packet.seq = q.nextSeq then
        fillLoop fuel
          { q with
            heap := heap
            pending := q.pending ++ packet.payload
            nextSeq := Usize.saturatingAdd q.nextSeq 1 }
      else if packet.seq > q.nextSeq then
        if heap.length ≥ q.maxBuffered then
          ({ q with heap := heap }, .error ⟨.other, some "packet-up reorder buffer exceeded"⟩)
        else
          ({ q with heap := heap.push packet }, .ok ())
      else
        fillLoop fuel
          { q with heap := heap, bufferedBytes := q.bufferedBytes - packet.payload.length }
    | none =>
      if q.closed && q.pending.isEmpty then
        (q, .error ⟨.unexpectedEof, none⟩)
      else
        (q, .ok ())

def fillPending (q : QueueState) : QueueState × Except IoError Unit :=
  q.fillLoop (q.heap.length + 1)

def push (q : QueueState) (packet : UploadPacket) : QueueState × Except IoError Unit :=
  if q.closed then
    (q, .error ⟨.brokenPipe, some "queue closed"⟩)
  else
    let payloadLen := packet.payload.length
    if q.heap.length ≥ q.maxBuffered
        || Usize.saturatingAdd q.bufferedBytes payloadLen > q.maxBufferedBytes then
      (q, .error ⟨.other, some "packet-up upload queue exceeded"⟩)
    else
      ({ q with
          bufferedBytes := Usize.saturatingAdd q.bufferedBytes payloadLen
          heap := q.heap.push packet },
        .ok ())

end QueueState

inductive Reader where
  | absent
  | idle
  | trying (room : Nat)
  | locking (room : Nat)
  | receiving (room : Nat)
  | ready (result : Except IoError Bytes)
  | pending
  | panicked

/--
A queue with the push that has the lock, the wake-ups in the channel, and the number of pushes that
have given the lock back and still have to send theirs. What the reader has returned and what
`push` has accepted so far are recorded.
-/
structure UploadQueue where
  state : QueueState
  lock : Option UploadPacket
  wakes : Nat
  owed : Nat
  reader : Reader
  returned : Bytes
  accepted : List Nat

inductive Event where
  | lock (packet : UploadPacket)
  | push
  | bumpWake
  | takeReader
  | poll (room : Nat)
  | tryLock
  | readLocked
  | pollRecv

namespace UploadQueue

def new (maxBuffered : Nat) : UploadQueue where
  state := .new maxBuffered
  lock := none
  wakes := 0
  owed := 0
  reader := .absent
  returned := []
  accepted := []

def push (s : UploadQueue) : UploadQueue :=
  match s.lock with
  | none => s
  | some packet =>
    let (state, result) := s.state.push packet
    match result with
    | .error _ => { s with state := state, lock := none }
    | .ok () =>
      { s with
        state := state
        lock := none
        owed := s.owed + 1
        accepted := s.accepted ++ [packet.seq] }

variable (s : UploadQueue)

def readLocked (room : Nat) : UploadQueue :=
  let (q, result) := s.state.fillPending
  match result with
  | .error e =>
    if e.kind = .unexpectedEof then
      { s with state := q, reader := .ready (.ok []) }
    else
      { s with state := q, reader := .ready (.error e) }
  | .ok () =>
    if !q.pending.isEmpty then
      let n := min room q.pending.length
      { s with
        state := { q with pending := q.pending.drop n, bufferedBytes := q.bufferedBytes - n }
        reader := .ready (.ok (q.pending.take n))
        returned := s.returned ++ q.pending.take n }
    else if q.closed then
      { s with state := q, reader := .ready (.ok []) }
    else
      { s with state := q, reader := .receiving room }

-- The channel does not close, as the reader has the queue and the queue has a sender.
def step (e : Event) : UploadQueue :=
  match e, s.reader with
  | .lock packet, _ => { s with lock := some packet }
  | .push, _ => s.push
  | .bumpWake, _ => { s with wakes := s.wakes + 1, owed := s.owed - 1 }
  | .takeReader, _ => { s with reader := .idle }
  | .poll room, _ => { s with reader := if room = 0 then .ready (.ok []) else .trying room }
  | .tryLock, .trying room =>
    { s with reader := if s.lock.isNone then .locking room else .receiving room }
  | .readLocked, .locking room =>
    if s.lock.isNone then s.readLocked room else { s with reader := .panicked }
  | .pollRecv, .receiving room =>
    if s.wakes = 0 then
      { s with reader := .pending }
    else
      { s with wakes := s.wakes - 1, reader := .trying room }
  | _, _ => s

def enabled (e : Event) : Bool :=
  match e, s.reader with
  | .lock _, _ => s.lock.isNone
  | .push, _ => s.lock.isSome
  | .bumpWake, _ => 0 < s.owed
  | .takeReader, .absent => true
  | .poll _, .idle => true
  | .poll _, .ready _ => true
  | .poll _, .pending => true
  | .tryLock, .trying _ => true
  | .readLocked, .locking _ => true
  | .pollRecv, .receiving _ => true
  | _, _ => false

end UploadQueue

open List Machine

def concat (payload : Nat → Bytes) (n : Nat) : Bytes :=
  ((range n).map payload).flatten

theorem concat_succ (payload : Nat → Bytes) (n : Nat)
    : concat payload (n + 1) = concat payload n ++ payload n := by
  simp [concat, range_succ]

theorem concat_isPrefix (payload : Nat → Bytes) (m n : Nat) (h : m ≤ n)
    : concat payload m <+: concat payload n := by
  induction n, h using Nat.le_induction with
  | base => exact prefix_rfl
  | succ n _ ih =>
    rw [concat_succ]
    apply ih.trans
    apply prefix_append

structure Good (payload : Nat → Bytes) (returned : Bytes) (accepted : List Nat) (q : QueueState)
    : Prop where
  room : q.heap.length ≤ q.maxBuffered
  notClosed : q.closed = false
  bytes : returned ++ q.pending = concat payload q.nextSeq
  packets : ∀ p ∈ q.heap, p.payload = payload p.seq ∧ p.seq < 2 ^ 64 - 1 ∧ p.seq ∈ accepted
  taken : ∀ k, k < q.nextSeq → k ∈ accepted
  kept : ∀ k ∈ accepted, k < q.nextSeq ∨ ∃ p ∈ q.heap, p.seq = k

namespace Good

variable {accepted : List Nat} (h : Good payload returned accepted q)
  (hpop : q.heap.pop = some (p, heap))

include h hpop

theorem take (hseq : p.seq = q.nextSeq)
    : Good payload returned accepted
        { q with
          heap := heap
          pending := q.pending ++ p.payload
          nextSeq := Usize.saturatingAdd q.nextSeq 1 } := by
  have hmem := Heap.mem_of_pop hpop
  have hlength := Heap.length_of_pop hpop
  have hroom := h.room
  rcases h.packets p ((hmem p).mpr (.inl rfl)) with ⟨hpayload, hbound, haccepted⟩
  rw [Usize.saturatingAdd_eq _ _ (by omega)]
  refine ⟨?_, h.notClosed, ?_, ?_, ?_, ?_⟩
  . dsimp only
    omega
  . dsimp only
    rw [← append_assoc, h.bytes, concat_succ, hpayload, hseq]
  . exact fun b hb => h.packets b ((hmem b).mpr (.inr hb))
  . intro k hk
    dsimp only at hk
    by_cases heq : k = q.nextSeq
    . rw [heq, ← hseq]
      exact haccepted
    . exact h.taken k (by omega)
  . intro k hk
    dsimp only
    rcases h.kept k hk with hlt | ⟨b, hb, hbk⟩
    . exact .inl (by omega)
    . rcases (hmem b).mp hb with rfl | hb
      . exact .inl (by omega)
      . exact .inr ⟨b, hb, hbk⟩

theorem drop (hseq : p.seq < q.nextSeq)
    : Good payload returned accepted
        { q with heap := heap, bufferedBytes := q.bufferedBytes - p.payload.length } := by
  have hmem := Heap.mem_of_pop hpop
  have hlength := Heap.length_of_pop hpop
  have hroom := h.room
  refine ⟨?_, h.notClosed, h.bytes, ?_, h.taken, ?_⟩
  . dsimp only
    omega
  . exact fun b hb => h.packets b ((hmem b).mpr (.inr hb))
  . intro k hk
    dsimp only
    rcases h.kept k hk with hlt | ⟨b, hb, hbk⟩
    . exact .inl hlt
    . rcases (hmem b).mp hb with rfl | hb
      . exact .inl (by omega)
      . exact .inr ⟨b, hb, hbk⟩

end Good

theorem fillLoop_good (payload : Nat → Bytes) (returned : Bytes) (accepted : List Nat) (fuel : Nat)
    (q : QueueState) (h : Good payload returned accepted q) (hfuel : q.heap.length < fuel)
    : ∃ q', q.fillLoop fuel = (q', .ok ()) ∧ Good payload returned accepted q'
        ∧ ∀ p ∈ q'.heap, q'.nextSeq < p.seq := by
  induction fuel generalizing q with
  | zero => omega
  | succ fuel ih =>
    unfold QueueState.fillLoop
    cases hpop : q.heap.pop with
    | none =>
      rw [h.notClosed]
      exact ⟨q, rfl, h, fun p hp => absurd hp (Heap.pop_eq_none hpop p)⟩
    | some popped =>
      rcases popped with ⟨p, heap⟩
      have hlength := Heap.length_of_pop hpop
      have hroom := h.room
      dsimp only
      split
      next hseq =>
        apply ih _ (h.take hpop hseq)
        dsimp only
        omega
      next hne =>
        split
        next hgt =>
          rw [if_neg (by omega), Heap.push_of_pop hpop]
          refine ⟨q, rfl, h, ?_⟩
          intro b hb
          rcases (Heap.mem_of_pop hpop b).mp hb with rfl | hb
          . exact hgt
          . have hfirst : p.Le b := Heap.first_of_pop hpop b hb
            unfold UploadPacket.Le at hfirst
            omega
        next hle =>
          apply ih _ (h.drop hpop (by omega))
          dsimp only
          omega

variable {payload : Nat → Bytes} {s : UploadQueue} {q : QueueState} {accepted : List Nat}

theorem fillPending_good (h : Good payload returned accepted q)
    : ∃ q', q.fillPending = (q', .ok ()) ∧ Good payload returned accepted q'
        ∧ ∀ p ∈ q'.heap, q'.nextSeq < p.seq := by
  apply fillLoop_good
  . exact h
  . omega

namespace QueueState

def accepts (q : QueueState) (packet : UploadPacket) : Bool :=
  (q.push packet).snd.isOk

theorem push_of_not_accepts (h : q.accepts packet = false)
    : ∃ e, q.push packet = (q, .error e) := by
  unfold accepts at h
  unfold push at *
  split
  next => exact ⟨_, rfl⟩
  next hclosed =>
    rw [if_neg hclosed] at h
    dsimp only at *
    split
    next => exact ⟨_, rfl⟩
    next hroom =>
      rw [if_neg hroom] at h
      cases h

theorem accepts_iff
    : q.accepts packet = true
        ↔ q.closed = false ∧ q.heap.length < q.maxBuffered
          ∧ Usize.saturatingAdd q.bufferedBytes packet.payload.length ≤ q.maxBufferedBytes := by
  unfold accepts push
  cases hclosed : q.closed with
  | true =>
    simp [Except.toBool]
  | false =>
    rw [if_neg (by simp)]
    dsimp only
    split
    next hroom =>
      simp only [Bool.or_eq_true, decide_eq_true_eq] at hroom
      simp only [Except.toBool, Bool.false_eq_true, false_iff]
      omega
    next hroom =>
      simp only [Bool.or_eq_true, decide_eq_true_eq] at hroom
      simp only [Except.toBool, true_and, true_iff]
      omega

theorem push_of_accepts (h : q.accepts packet = true)
    : q.heap.length < q.maxBuffered
        ∧ q.push packet = ({ q with
            bufferedBytes := Usize.saturatingAdd q.bufferedBytes packet.payload.length
            heap := q.heap.push packet }, .ok ()) := by
  rcases accepts_iff.mp h with ⟨hclosed, hroom, hbytes⟩
  refine ⟨hroom, ?_⟩
  unfold push
  rw [if_neg (by simp [hclosed])]
  rw [if_neg]
  simp only [Bool.or_eq_true, decide_eq_true_eq]
  omega

def Readable (q : QueueState) : Prop :=
  q.pending ≠ [] ∨ ∃ p ∈ q.heap, p.seq = q.nextSeq

end QueueState

theorem Good.push (h : Good payload returned accepted q) (bytes : Nat)
    (hroom : q.heap.length < q.maxBuffered) (hpayload : p.payload = payload p.seq)
    (hbound : p.seq < 2 ^ 64 - 1)
    : Good payload returned (accepted ++ [p.seq])
        { q with bufferedBytes := bytes, heap := q.heap.push p } := by
  refine ⟨?_, h.notClosed, h.bytes, ?_, ?_, ?_⟩
  . dsimp only
    rw [Heap.length_push]
    omega
  . intro b hb
    rcases Heap.mem_push.mp hb with rfl | hb
    . exact ⟨hpayload, hbound, by simp⟩
    . rcases h.packets b hb with ⟨hpayload', hbound', haccepted⟩
      exact ⟨hpayload', hbound', mem_append_left _ haccepted⟩
  . exact fun k hk => mem_append_left _ (h.taken k hk)
  . intro k hk
    rw [mem_append, mem_singleton] at hk
    rcases hk with hk | rfl
    . rcases h.kept k hk with hlt | ⟨b, hb, hbk⟩
      . exact .inl hlt
      . exact .inr ⟨b, Heap.mem_push.mpr (.inr hb), hbk⟩
    . exact .inr ⟨p, Heap.mem_push.mpr (.inl rfl), rfl⟩

theorem Good.read (h : Good payload returned accepted q) {n bytes : Nat}
    : Good payload (returned ++ q.pending.take n) accepted
        { q with pending := q.pending.drop n, bufferedBytes := bytes } := by
  refine ⟨h.room, h.notClosed, ?_, h.packets, h.taken, h.kept⟩
  rw [append_assoc, take_append_drop]
  exact h.bytes

def Reader.waits : Reader → Bool
  | receiving _ => true
  | pending => true
  | _ => false

def Reader.works : Reader → Bool
  | panicked => false
  | ready (.error _) => false
  | trying room => 0 < room
  | locking room => 0 < room
  | receiving room => 0 < room
  | _ => true

/--
A push does not take the lock between the two attempts of the reader. A push that has the lock when
the reader finds it taken is accepted. The last sequence number does not occur.
-/
def calm (s : UploadQueue) (e : Event) : Bool :=
  match e, s.reader with
  | .lock packet, _ => packet.seq < 2 ^ 64 - 1
  | .tryLock, .trying _ => s.lock.all s.state.accepts
  | .readLocked, .locking _ => s.lock.isNone
  | _, _ => true

def assigned (payload : Nat → Bytes) (e : Event) : Bool :=
  match e with
  | .lock packet => packet.payload = payload packet.seq
  | _ => true

structure Inv (payload : Nat → Bytes) (s : UploadQueue) : Prop where
  good : Good payload s.returned s.accepted s.state
  holder : ∀ p, s.lock = some p → p.payload = payload p.seq ∧ p.seq < 2 ^ 64 - 1
  works : s.reader.works = true
  woken : s.reader.waits = true → s.state.Readable →
    0 < s.wakes + s.owed ∨ ∃ p, s.lock = some p ∧ s.state.accepts p = true

theorem Inv.room_pos (h : Inv payload s)
    (hreader : s.reader = .trying room ∨ s.reader = .locking room ∨ s.reader = .receiving room)
    : 0 < room := by
  have hworks := h.works
  rcases hreader with hreader | hreader | hreader <;> simpa [hreader, Reader.works] using hworks

theorem inv_new
    : Inv payload (.new maxBuffered) where
  good :=
    have hempty (p : UploadPacket) : p ∉ (QueueState.new maxBuffered).heap := not_mem_nil
    { room := Nat.zero_le _
      notClosed := rfl
      bytes := rfl
      packets := fun p hp => absurd hp (hempty p)
      taken := fun k hk => absurd hk (Nat.not_lt_zero k)
      kept := fun k hk => absurd hk not_mem_nil }
  holder := fun p hp => by cases hp
  works := rfl
  woken := fun hwaits => by cases hwaits

section

variable (payload s) (h : Inv payload s)

include h

theorem inv_lock (hlock : s.lock = none) (hpayload : p.payload = payload p.seq)
    (hbound : p.seq < 2 ^ 64 - 1)
    : Inv payload { s with lock := some p } where
  good := h.good
  holder := fun q hq => by
    cases hq
    exact ⟨hpayload, hbound⟩
  works := h.works
  woken := by
    intro hwaits hreadable
    rcases h.woken hwaits hreadable with hwakes | ⟨q, hq, _⟩
    . exact .inl hwakes
    . rw [hlock] at hq
      cases hq

theorem inv_push : Inv payload s.push := by
  unfold UploadQueue.push
  cases hlock : s.lock with
  | none => exact h
  | some p =>
    rcases h.holder p hlock with ⟨hpayload, hbound⟩
    cases haccepts : s.state.accepts p with
    | false =>
      rcases QueueState.push_of_not_accepts haccepts with ⟨e, hpush⟩
      simp only [hpush]
      refine ⟨h.good, fun q hq => (by cases hq), h.works, ?_⟩
      intro hwaits hreadable
      rcases h.woken hwaits hreadable with hwakes | ⟨q, hq, haccepts'⟩
      . exact .inl hwakes
      rw [hlock] at hq
      cases hq
      rw [haccepts] at haccepts'
      cases haccepts'
    | true =>
      rcases QueueState.push_of_accepts haccepts with ⟨hroom, hpush⟩
      simp only [hpush]
      refine ⟨?_, fun q hq => (by cases hq), h.works, ?_⟩
      . exact h.good.push _ hroom hpayload hbound
      . exact fun _ _ => .inl (Nat.succ_pos (s.wakes + s.owed))

theorem inv_bumpWake
    : Inv payload { s with wakes := s.wakes + 1, owed := s.owed - 1 } where
  good := h.good
  holder := h.holder
  works := h.works
  woken := fun _ _ => .inl (Nat.add_pos_left (Nat.succ_pos s.wakes) (s.owed - 1))

theorem inv_reader (hworks : reader.works = true) (hwaits : reader.waits = false)
    : Inv payload { s with reader := reader, wakes := wakes } where
  good := h.good
  holder := h.holder
  works := hworks
  woken := fun hwaits' => by
    rw [hwaits] at hwaits'
    cases hwaits'

theorem inv_tryLock (hroom : 0 < room) (hcalm : s.lock.all s.state.accepts = true)
    : Inv payload
        { s with reader := if s.lock.isNone then .locking room else .receiving room } := by
  cases hlock : s.lock with
  | none =>
    have hworks : (Reader.locking room).works = true := by simpa [Reader.works] using hroom
    simpa [hlock] using inv_reader payload s h hworks rfl
  | some p =>
    rw [hlock] at hcalm
    refine ⟨h.good, fun q hq => h.holder q (hlock.trans hq), ?_, ?_⟩
    . simpa [Reader.works] using hroom
    . exact fun _ _ => .inr ⟨p, rfl, hcalm⟩

theorem inv_readLocked (hroom : 0 < room) : Inv payload (s.readLocked room) := by
  rcases fillPending_good h.good with ⟨q, hfill, hgood, hdone⟩
  unfold UploadQueue.readLocked
  rw [hfill]
  dsimp only
  split
  next => exact ⟨hgood.read, h.holder, rfl, fun hwaits => by cases hwaits⟩
  next hpending =>
    rw [hgood.notClosed]
    refine ⟨hgood, h.holder, by simpa [Reader.works] using hroom, ?_⟩
    intro _ hreadable
    rcases hreadable with hne | ⟨p, hp, hseq⟩
    . exact absurd (by simpa using hpending) hne
    . exact absurd hseq (Nat.ne_of_gt (hdone p hp))

theorem inv_pollRecv (hroom : 0 < room) (hwaits : s.reader.waits = true)
    : Inv payload
        (if s.wakes = 0 then { s with reader := .pending }
          else { s with wakes := s.wakes - 1, reader := .trying room }) := by
  split
  next => exact ⟨h.good, h.holder, rfl, fun _ => h.woken hwaits⟩
  next =>
    apply inv_reader payload s h _ rfl
    simpa [Reader.works] using hroom

end

theorem inv_step (h : Inv payload s) (henabled : s.enabled e = true)
    (hassigned : assigned payload e = true) (hcalm : calm s e = true)
    : Inv payload (s.step e) := by
  cases e with
  | lock p =>
    have hlock : s.lock = none := by simpa [UploadQueue.enabled] using henabled
    exact inv_lock payload s h hlock (by simpa [assigned] using hassigned)
      (by simpa [calm] using hcalm)
  | push => exact inv_push payload s h
  | bumpWake => exact inv_bumpWake payload s h
  | takeReader => exact inv_reader payload s h rfl rfl
  | poll room =>
    simp only [UploadQueue.step]
    split
    next => exact inv_reader payload s h rfl rfl
    next hne =>
      apply inv_reader payload s h _ rfl
      simpa [Reader.works, Nat.pos_iff_ne_zero] using hne
  | tryLock =>
    unfold UploadQueue.step
    cases hreader : s.reader with
    | trying room =>
      simp only [calm, hreader] at hcalm
      exact inv_tryLock payload s h (h.room_pos (.inl hreader)) hcalm
    | _ => exact h
  | readLocked =>
    unfold UploadQueue.step
    cases hreader : s.reader with
    | locking room =>
      simp only [calm, hreader] at hcalm
      dsimp only
      rw [if_pos hcalm]
      exact inv_readLocked payload s h (h.room_pos (.inr (.inl hreader)))
    | _ => exact h
  | pollRecv =>
    unfold UploadQueue.step
    cases hreader : s.reader with
    | receiving room =>
      apply inv_pollRecv payload s h (h.room_pos (.inr (.inr hreader)))
      rw [hreader]
      rfl
    | _ => exact h

def due (room : Nat) (s : UploadQueue) (e : Event) : Bool :=
  s.enabled e
    && match e, s.reader with
      | .lock _, _ => false
      | .poll n, .pending => n = room && 0 < s.wakes
      | .poll n, _ => n = room
      | _, _ => true

def Reader.rank : Reader → Nat
  | absent => 4
  | receiving _ => 4
  | idle => 3
  | ready _ => 3
  | pending => 3
  | trying _ => 2
  | locking _ => 1
  | panicked => 0

def distance (target : Bytes) (s : UploadQueue) : Nat :=
  5 * (target.length - s.returned.length) + 2 * s.lock.toList.length + s.owed + s.reader.rank

theorem accepted_step (hk : k ∈ s.accepted)
    : k ∈ (s.step e).accepted := by
  unfold UploadQueue.step
  split
  case h_2 =>
    unfold UploadQueue.push
    split
    . exact hk
    dsimp only
    split
    . exact hk
    . exact mem_append_left _ hk
  case h_7 =>
    unfold UploadQueue.readLocked
    dsimp only
    split
    . split
      . split <;> exact hk
      . split
        . exact hk
        . split <;> exact hk
    . exact hk
  case h_8 => split <;> exact hk
  all_goals exact hk

section

variable (h : Good payload returned accepted q)

include h

theorem Good.returned_isPrefix : returned <+: concat payload q.nextSeq := by
  rw [← h.bytes]
  apply prefix_append

theorem Good.length_lt (hn : ¬concat payload n <+: returned)
    : returned.length < (concat payload n).length := by
  by_contra hge
  apply hn
  apply prefix_of_prefix_length_le
  . exact concat_isPrefix payload n (max n q.nextSeq) (by omega)
  . apply h.returned_isPrefix.trans
    exact concat_isPrefix payload q.nextSeq (max n q.nextSeq) (by omega)
  . omega

theorem Good.le_nextSeq (hn : ∀ k, k < n → k ∈ accepted) (hnext : ∀ p ∈ q.heap, p.seq ≠ q.nextSeq)
    : n ≤ q.nextSeq := by
  by_contra hlt
  rcases h.kept q.nextSeq (hn q.nextSeq (by omega)) with hself | ⟨p, hp, hseq⟩
  . omega
  . exact hnext p hp hseq

theorem Good.readable (hn : ∀ k, k < n → k ∈ accepted) (hmissing : ¬concat payload n <+: returned)
    : q.Readable := by
  by_contra hnot
  unfold QueueState.Readable at hnot
  push Not at hnot
  have hbytes := h.bytes
  rw [hnot.left, append_nil] at hbytes
  apply hmissing
  rw [hbytes]
  exact concat_isPrefix payload n q.nextSeq (h.le_nextSeq hn hnot.right)

end

theorem readLocked_returns (h : Inv payload s) (hn : ∀ k, k < n → k ∈ s.accepted)
    (hmissing : ¬concat payload n <+: s.returned) (hroom : 0 < room)
    : s.returned.length < (s.readLocked room).returned.length
        ∧ (∃ bytes, (s.readLocked room).reader = .ready (.ok bytes))
        ∧ (s.readLocked room).lock = s.lock ∧ (s.readLocked room).owed = s.owed := by
  rcases fillPending_good h.good with ⟨q, hfill, hgood, hdone⟩
  have hpending : q.pending ≠ [] := by
    rcases hgood.readable hn hmissing with hne | ⟨p, hp, hseq⟩
    . exact hne
    . exact absurd hseq (Nat.ne_of_gt (hdone p hp))
  have hlength : 0 < q.pending.length := length_pos_iff.mpr hpending
  unfold UploadQueue.readLocked
  rw [hfill]
  dsimp only
  rw [if_pos (by simpa using hpending)]
  refine ⟨?_, ⟨_, rfl⟩, rfl, rfl⟩
  simp only [length_append, length_take]
  omega

-- Once every push has sent its wake-up, the wake-up of a waiting reader is in the channel.
theorem Inv.wakes_pos (h : Inv payload s)
    (hlock : s.lock = none) (howed : s.owed = 0) (hwaits : s.reader.waits = true)
    (hreadable : s.state.Readable)
    : 0 < s.wakes := by
  rcases h.woken hwaits hreadable with hwakes | ⟨p, hp, _⟩
  . omega
  . rw [hlock] at hp
    cases hp

theorem distance_push (hlock : s.lock = some p)
    : distance target s.push < distance target s := by
  unfold UploadQueue.push distance
  rw [hlock]
  dsimp only
  split
  next =>
    simp only [Option.toList_some, Option.toList_none, length_cons]
    omega
  next =>
    simp only [Option.toList_some, Option.toList_none, length_cons]
    omega

section

variable (payload s) (h : Inv payload s) (n room : Nat) (hn : ∀ k, k < n → k ∈ s.accepted)
  (hmissing : ¬concat payload n <+: s.returned) (hroom : 0 < room)

include h hn hmissing hroom

theorem exists_due_reader (hlock : s.lock = none) (howed : s.owed = 0)
    : ∃ e, due room s e = true ∧ assigned payload e = true ∧ calm s e = true
        ∧ distance (concat payload n) (s.step e) < distance (concat payload n) s := by
  have hne : room ≠ 0 := by omega
  have hreadable := h.good.readable hn hmissing
  cases hreader : s.reader with
  | absent =>
    refine ⟨.takeReader, by simp [due, UploadQueue.enabled, hreader], rfl, rfl, ?_⟩
    simp [UploadQueue.step, distance, hreader, Reader.rank]
  | idle =>
    refine ⟨.poll room, by simp [due, UploadQueue.enabled, hreader], rfl, rfl, ?_⟩
    simp [UploadQueue.step, distance, hreader, Reader.rank, hne]
  | ready result =>
    refine ⟨.poll room, by simp [due, UploadQueue.enabled, hreader], rfl, rfl, ?_⟩
    simp [UploadQueue.step, distance, hreader, Reader.rank, hne]
  | pending =>
    have hwaits : s.reader.waits = true := by rw [hreader]; rfl
    have hwakes := h.wakes_pos hlock howed hwaits hreadable
    refine ⟨.poll room, by simp [due, UploadQueue.enabled, hreader, hwakes], rfl, rfl, ?_⟩
    simp [UploadQueue.step, distance, hreader, Reader.rank, hne]
  | trying room' =>
    refine ⟨.tryLock, by simp [due, UploadQueue.enabled, hreader], rfl,
      by simp [calm, hreader, hlock], ?_⟩
    simp [UploadQueue.step, distance, hreader, hlock, Reader.rank]
  | locking room' =>
    refine ⟨.readLocked, by simp [due, UploadQueue.enabled, hreader], rfl,
      by simp [calm, hreader, hlock], ?_⟩
    have hroom' := h.room_pos (.inr (.inl hreader))
    have hlength := h.good.length_lt hmissing
    rcases readLocked_returns h hn hmissing hroom' with ⟨hreturned, ⟨bytes, hready⟩, hlock', howed'⟩
    simp only [UploadQueue.step, hreader, hlock, Option.isNone_none, if_true, distance, hready,
      hlock', Reader.rank]
    omega
  | receiving room' =>
    have hwaits : s.reader.waits = true := by rw [hreader]; rfl
    have hwakes := h.wakes_pos hlock howed hwaits hreadable
    have hwakes' : s.wakes ≠ 0 := by omega
    refine ⟨.pollRecv, by simp [due, UploadQueue.enabled, hreader], rfl, by simp [calm], ?_⟩
    simp [UploadQueue.step, distance, hreader, hwakes', Reader.rank]
  | panicked =>
    have hworks := h.works
    rw [hreader] at hworks
    cases hworks

theorem exists_due
    : ∃ e, due room s e = true ∧ assigned payload e = true ∧ calm s e = true
        ∧ distance (concat payload n) (s.step e) < distance (concat payload n) s := by
  cases hlock : s.lock with
  | some p =>
    refine ⟨.push, by simp [due, UploadQueue.enabled, hlock], rfl, rfl, ?_⟩
    exact distance_push hlock
  | none =>
    by_cases howed : s.owed = 0
    . exact exists_due_reader payload s h n room hn hmissing hroom hlock howed
    refine ⟨.bumpWake, ?_, rfl, rfl, ?_⟩
    . simpa [due, UploadQueue.enabled, Nat.pos_iff_ne_zero] using howed
    . simp only [UploadQueue.step, distance]
      omega

end

theorem upload_queue_reassembles (payload : Nat → Bytes) (maxBuffered : Nat) (s : UploadQueue)
    (h : Reach UploadQueue.step
      (fun s e => s.enabled e && assigned payload e && calm s e) (.new maxBuffered) s)
    : (∃ m, (∀ k, k < m → k ∈ s.accepted)
          ∧ s.returned ++ s.state.pending = concat payload m)
        ∧ s.reader.works = true
        ∧ ∀ n, (∀ k, k < n → k ∈ s.accepted) → ∀ room, 0 < room →
          ∃ es, Allowed UploadQueue.step (fun s e => due room s e) s es
            ∧ concat payload n <+: (es.foldl UploadQueue.step s).returned := by
  have hinv : Inv payload s := by
    apply Reach.invariant (Inv payload) _ s inv_new _ h
    intro t e ht hallowed
    simp only [Bool.and_eq_true] at hallowed
    exact inv_step ht hallowed.left.left hallowed.left.right hallowed.right
  refine ⟨⟨s.state.nextSeq, hinv.good.taken, hinv.good.bytes⟩, hinv.works, ?_⟩
  intro n hn room hroom
  apply exists_run (fun s => Inv payload s ∧ ∀ k, k < n → k ∈ s.accepted)
    (fun s => concat payload n <+: s.returned) (distance (concat payload n)) _ s ⟨hinv, hn⟩
  rintro t ⟨ht, hn⟩ hmissing
  rcases exists_due payload t ht n room hn hmissing hroom with ⟨e, hdue, hassigned, hcalm, hlt⟩
  have henabled : t.enabled e = true := by
    simp only [due, Bool.and_eq_true] at hdue
    exact hdue.left
  refine ⟨e, hdue, ⟨inv_step ht henabled hassigned hcalm, ?_⟩, hlt⟩
  exact fun k hk => accepted_step (hn k hk)

def letters (k : Nat) : Bytes := [UInt8.ofNat (65 + k)]

def outOfOrder : List Event :=
  [.lock ⟨1, [66]⟩, .push, .bumpWake, .lock ⟨0, [65]⟩, .push, .bumpWake, .lock ⟨1, [66]⟩, .push,
    .bumpWake, .takeReader, .poll 1, .tryLock, .readLocked]

theorem upload_queue_reassembles_out_of_order
    : (outOfOrder.foldl UploadQueue.step (.new 8)).returned = [65]
        ∧ ∃ es, Allowed UploadQueue.step (fun s e => due 1 s e)
            (outOfOrder.foldl UploadQueue.step (.new 8)) es
          ∧ [65, 66] <+:
            (es.foldl UploadQueue.step (outOfOrder.foldl UploadQueue.step (.new 8))).returned := by
  refine ⟨by decide, ?_⟩
  have h := upload_queue_reassembles letters 8 (outOfOrder.foldl UploadQueue.step (.new 8))
    (Reach.foldl _ outOfOrder .start (by decide))
  exact h.right.right 2 (by decide) 1 (by decide)

theorem foldl_of_stuck (hstuck : ∀ e, due room s e = false)
    (hes : Allowed UploadQueue.step (fun s e => due room s e) s es)
    : es.foldl UploadQueue.step s = s := by
  cases es with
  | nil => rfl
  | cons e es =>
    have hdue := hes.left
    dsimp only at hdue
    rw [hstuck e] at hdue
    cases hdue

-- The push takes the lock after the reader has found it free.
def racingPush : List Event :=
  [.takeReader, .poll 4, .tryLock, .lock ⟨0, [65]⟩, .readLocked, .push, .bumpWake]

theorem upload_queue_panics
    : let s := racingPush.foldl UploadQueue.step (.new 8)
      Allowed UploadQueue.step (fun s e => s.enabled e && assigned letters e) (.new 8)
          racingPush
        ∧ s.accepted = [0]
        ∧ s.reader = .panicked
        ∧ ∀ room es, Allowed UploadQueue.step (fun s e => due room s e) s es →
          (es.foldl UploadQueue.step s).returned = [] := by
  refine ⟨by decide, rfl, rfl, ?_⟩
  intro room es hes
  rw [foldl_of_stuck _ hes]
  . rfl
  . intro e
    cases e <;> rfl

def heapBytes (heap : Heap UploadPacket.Le) : Nat :=
  (heap.items.map fun p => p.payload.length).sum

theorem heapBytes_of_pop (hpop : heap.pop = some (p, heap'))
    : heapBytes heap = p.payload.length + heapBytes heap' := by
  rcases heap with ⟨_ | ⟨q, items⟩, sorted⟩
  . cases hpop
  . cases hpop
    rfl

theorem heapBytes_push (heap : Heap UploadPacket.Le) (p : UploadPacket)
    : heapBytes (heap.push p) = p.payload.length + heapBytes heap := by
  exact ((perm_orderedInsert _ p heap.items).map _).sum_nat

namespace QueueState

structure Accounted (max : Nat) (q : QueueState) : Prop where
  bytes : q.bufferedBytes = heapBytes q.heap + q.pending.length
  limit : q.bufferedBytes ≤ defaultMaxBufferedBytes
  limits : q.maxBufferedBytes = defaultMaxBufferedBytes ∧ q.maxBuffered = max
  room : q.heap.length ≤ max
  notClosed : q.closed = false

namespace Accounted

variable {max : Nat}

theorem fillLoop (fuel : Nat) (h : q.Accounted max) : (q.fillLoop fuel).fst.Accounted max := by
  induction fuel generalizing q with
  | zero => exact h
  | succ fuel ih =>
    have hbytes := h.bytes
    have hlimit := h.limit
    have hroom := h.room
    unfold QueueState.fillLoop
    split
    next packet heap hpop =>
      have hlength := Heap.length_of_pop hpop
      rw [heapBytes_of_pop hpop] at hbytes
      split
      next =>
        apply ih
        refine ⟨?_, hlimit, h.limits, by dsimp only; omega, h.notClosed⟩
        dsimp only
        rw [length_append]
        omega
      next =>
        split
        next =>
          rw [if_neg (by rw [h.limits.right]; omega), Heap.push_of_pop hpop]
          exact h
        next =>
          apply ih
          refine ⟨?_, ?_, h.limits, ?_, h.notClosed⟩ <;> dsimp only <;> omega
    next => split <;> exact h

theorem push (h : q.Accounted max) (packet : UploadPacket)
    : (q.push packet).fst.Accounted max := by
  cases haccepts : q.accepts packet with
  | false =>
    rcases push_of_not_accepts haccepts with ⟨e, he⟩
    rw [he]
    exact h
  | true =>
    rcases accepts_iff.mp haccepts with ⟨_, hroom, hfits⟩
    have hbytes := h.bytes
    rcases h.limits with ⟨hlimit, hmax⟩
    rw [hlimit] at hfits
    have hsum := Usize.saturatingAdd_eq q.bufferedBytes packet.payload.length (by
      unfold Usize.saturatingAdd defaultMaxBufferedBytes at hfits
      omega)
    rw [(push_of_accepts haccepts).right, hsum]
    rw [hsum] at hfits
    refine ⟨?_, hfits, h.limits, ?_, h.notClosed⟩
    . dsimp only
      rw [heapBytes_push]
      omega
    . dsimp only
      rw [Heap.length_push]
      omega

end Accounted

end QueueState

namespace UploadQueue

variable {max : Nat}

theorem accounted_readLocked (h : s.state.Accounted max) (room : Nat)
    : (s.readLocked room).state.Accounted max := by
  have hfill := h.fillLoop (s.state.heap.length + 1)
  unfold UploadQueue.readLocked QueueState.fillPending
  generalize s.state.fillLoop (s.state.heap.length + 1) = filled at hfill ⊢
  rcases filled with ⟨q, _ | _⟩
  . dsimp only
    split <;> exact hfill
  have hbytes := hfill.bytes
  have hlimit := hfill.limit
  dsimp only at *
  split
  . refine ⟨?_, ?_, hfill.limits, hfill.room, hfill.notClosed⟩
    . dsimp only
      rw [length_drop]
      omega
    . dsimp only
      omega
  . split <;> exact hfill

theorem accounted_step (h : s.state.Accounted max)
    : (s.step e).state.Accounted max := by
  unfold UploadQueue.step
  split
  case h_2 =>
    unfold UploadQueue.push
    split
    . exact h
    . next packet _ =>
      have hpush := h.push packet
      generalize s.state.push packet = pushed at hpush ⊢
      rcases pushed with ⟨q, _ | _⟩ <;> exact hpush
  case h_7 =>
    split
    . exact accounted_readLocked h _
    . exact h
  case h_8 => split <;> exact h
  all_goals exact h

theorem accounted_of_reach
    (h : Reach UploadQueue.step (fun s e => s.enabled e = true) (.new maxBuffered) s)
    : s.state.Accounted (if maxBuffered = 0 then 64 else maxBuffered) := by
  apply Reach.invariant _ _ s _ (fun t e ht _ => accounted_step ht) h
  exact ⟨rfl, Nat.zero_le _, ⟨rfl, rfl⟩, Nat.zero_le _, rfl⟩

end UploadQueue

theorem packet_up_bytes_accounted (maxBuffered : Nat) (s : UploadQueue)
    (h : Reach UploadQueue.step (fun s e => s.enabled e = true) (.new maxBuffered) s)
    : s.state.bufferedBytes = heapBytes s.state.heap + s.state.pending.length
      ∧ s.state.bufferedBytes ≤ 8 * 1024 * 1024
      ∧ s.state.heap.length ≤ if maxBuffered = 0 then 64 else maxBuffered := by
  have haccounted := UploadQueue.accounted_of_reach h
  exact ⟨haccounted.bytes, haccounted.limit, haccounted.room⟩

theorem packet_up_bytes_accounted_out_of_order
    : (outOfOrder.foldl UploadQueue.step (.new 8)).state.bufferedBytes ≤ 8 * 1024 * 1024 := by
  have h := packet_up_bytes_accounted 8 (outOfOrder.foldl UploadQueue.step (.new 8))
    (Reach.foldl _ outOfOrder .start (by decide))
  exact h.right.left

theorem packet_up_accepts_next_iff (maxBuffered : Nat) (s : UploadQueue)
    (h : Reach UploadQueue.step (fun s e => s.enabled e = true) (.new maxBuffered) s)
    (payload : Bytes)
    (hfits : s.state.bufferedBytes + payload.length ≤ s.state.maxBufferedBytes)
    : s.state.accepts ⟨s.state.nextSeq, payload⟩ = true
        ↔ s.state.heap.length < s.state.maxBuffered := by
  have haccounted := UploadQueue.accounted_of_reach h
  have hsum : Usize.saturatingAdd s.state.bufferedBytes payload.length
      ≤ s.state.maxBufferedBytes := (Nat.min_le_left _ _).trans hfits
  rw [QueueState.accepts_iff]
  simp [haccounted.notClosed, hsum]

theorem packet_up_accepts_next_out_of_order
    : (outOfOrder.foldl UploadQueue.step (.new 8)).state.accepts ⟨2, [67]⟩ = true :=
  (packet_up_accepts_next_iff 8 (outOfOrder.foldl UploadQueue.step (.new 8))
    (Reach.foldl _ outOfOrder .start (by decide)) [67] (by decide)).mpr (by decide)

def QueueState.Stuck (q : QueueState) : Prop :=
  q.heap.length = q.maxBuffered ∧ 0 < q.maxBuffered ∧ q.pending = []
    ∧ ∀ p ∈ q.heap, q.nextSeq < p.seq

theorem QueueState.Stuck.fillPending (h : q.Stuck) : q.fillPending.fst = q := by
  rcases h with ⟨hfull, hpos, _, hlater⟩
  unfold QueueState.fillPending QueueState.fillLoop
  cases hpop : q.heap.pop with
  | none => dsimp only; split <;> rfl
  | some popped =>
    have hlength := Heap.length_of_pop hpop
    have hseq := hlater popped.fst ((Heap.mem_of_pop hpop _).mpr (.inl rfl))
    dsimp only
    rw [if_neg (by omega), if_pos hseq, if_neg (by omega), Heap.push_of_pop hpop]

theorem stuck_step (h : s.state.Stuck)
    : (s.step e).state.Stuck := by
  have hpush (packet : UploadPacket)
      : s.state.push packet = (s.state, (s.state.push packet).snd) := by
    cases haccepts : s.state.accepts packet with
    | false =>
      rcases QueueState.push_of_not_accepts haccepts with ⟨e, he⟩
      rw [he]
    | true =>
      have hroom := (QueueState.push_of_accepts haccepts).left
      rw [h.left] at hroom
      exact absurd hroom (Nat.lt_irrefl _)
  have hfill := h.fillPending
  unfold UploadQueue.step
  split
  case h_2 =>
    unfold UploadQueue.push
    split
    . exact h
    . next packet _ =>
      rw [hpush packet]
      dsimp only
      split <;> exact h
  case h_7 =>
    split
    . unfold UploadQueue.readLocked
      generalize s.state.fillPending = filled at hfill
      rcases filled with ⟨q, _ | _⟩
      . cases hfill
        dsimp only
        split <;> exact h
      . cases hfill
        dsimp only
        rw [if_neg (by simp [h.right.right.left])]
        split <;> exact h
    . exact h
  case h_8 => split <;> exact h
  all_goals exact h

theorem packet_up_full_queue_blocks
    : ∃ s, Reach UploadQueue.step (fun s e => s.enabled e = true) (.new 1) s
      ∧ s.state.nextSeq = 0 ∧ s.state.bufferedBytes = 1
      ∧ ∀ es : List Event, (es.foldl UploadQueue.step s).state.accepts ⟨0, [65]⟩ = false := by
  refine ⟨[Event.lock ⟨1, [66]⟩, .push].foldl UploadQueue.step (.new 1),
    Reach.foldl _ _ .start (by decide), rfl, rfl, ?_⟩
  intro es
  have hstuck : (es.foldl UploadQueue.step
      ([Event.lock ⟨1, [66]⟩, .push].foldl UploadQueue.step (.new 1))).state.Stuck := by
    apply List.foldlRecOn (motive := fun s : UploadQueue => s.state.Stuck)
    . exact ⟨rfl, by decide, rfl, by decide⟩
    . exact fun s h e _ => stuck_step h
  rw [← Bool.not_eq_true, QueueState.accepts_iff]
  have hfull := hstuck.left
  omega

end Blackwire.PacketUp
