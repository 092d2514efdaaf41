import Mathlib.Data.List.Infix
import Blackwire.Lib.Outbox

/-!
This module contains writers that put a chunk into a record and accept it when the record has been
passed on. A write that was not accepted is made again, and it goes on with the record.
-/

structure RecordWriter (τ α ε : Type) where
  limit : Nat
  limit_pos : 0 < limit
  zero : ε
  encode : τ → List α → Except ε (τ × List α)

namespace RecordWriter

open List

variable {τ α ε : Type}

structure Core (τ : Type) where
  state : τ
  chunkLen : Nat

variable (w : RecordWriter τ α ε)

def drained (o : Outbox (Core τ) α) (answers : List (Poll (Except ε Nat)))
    : Outbox (Core τ) α × Poll (Except ε Nat) :=
  match o.drain w.zero answers with
  | (o, .ready (.ok ()), _) =>
    ({ o with core := { o.core with chunkLen := 0 } }, .ready (.ok o.core.chunkLen))
  | (o, .ready (.error e), _) => (o, .ready (.error e))
  | (o, .pending, _) => (o, .pending)

def pollWrite (o : Outbox (Core τ) α) (buf : List α) (answers : List (Poll (Except ε Nat)))
    : Outbox (Core τ) α × Poll (Except ε Nat) :=
  if !o.queue.isEmpty then
    w.drained o answers
  else if buf.isEmpty then
    (o, .ready (.ok 0))
  else
    match w.encode o.core.state (buf.take w.limit) with
    | .error e => (o, .ready (.error e))
    | .ok (state, record) =>
      w.drained { o with core := ⟨state, (buf.take w.limit).length⟩, queue := record } answers

structure Session (τ α : Type) where
  out : Outbox (Core τ) α
  accepted : List (List α)
  offered : List α

inductive Event (α ε : Type) where
  | write (buf : List α) (answers : List (Poll (Except ε Nat)))
  | flush (inner : Poll (Except ε Unit))
  | shutdown (inner : Poll (Except ε Unit))

def encodeAll (state : τ) : List (List α) → Except ε (τ × List α)
  | [] => .ok (state, [])
  | chunk :: chunks =>
    match w.encode state chunk with
    | .error e => .error e
    | .ok (state, record) =>
      match encodeAll state chunks with
      | .error e => .error e
      | .ok (state, records) => .ok (state, record ++ records)

theorem encodeAll_concat (state state' state'' : τ) (chunks : List (List α))
    (chunk bytes record : List α) (h : w.encodeAll state chunks = .ok (state', bytes))
    (hchunk : w.encode state' chunk = .ok (state'', record))
    : w.encodeAll state (chunks ++ [chunk]) = .ok (state'', bytes ++ record) := by
  induction chunks generalizing state bytes with
  | nil =>
    cases h
    simp [encodeAll, hchunk]
  | cons first chunks ih =>
    unfold encodeAll at h
    split at h
    . cases h
    . next next front hfirst =>
      split at h
      . cases h
      . next last rest hrest =>
        cases h
        rw [cons_append, encodeAll, hfirst]
        dsimp only
        rw [ih next rest hrest, append_assoc]

namespace Session

def start (state : τ) : Session τ α :=
  ⟨⟨⟨state, 0⟩, [], []⟩, [], []⟩

def report (s : Session τ α) (buf : List α) : Outbox (Core τ) α × Poll (Except ε Nat) → Session τ α
  | (out, .ready (.ok n)) => ⟨out, if n = 0 then s.accepted else s.accepted ++ [buf.take n], []⟩
  | (out, _) => ⟨out, s.accepted, buf⟩

-- The stream below is flushed and shut down without a look at the writer.
def step (s : Session τ α) : Event α ε → Session τ α
  | .write buf answers => s.report buf (w.pollWrite s.out buf answers)
  | .flush _ => s
  | .shutdown _ => s

/--
A write that was not accepted is made again with the same bytes, and it may be with more.
-/
def conforming (s : Session τ α) : Event α ε → Prop
  | .write buf _ => s.offered <+: buf
  | _ => True

instance [DecidableEq α] (s : Session τ α) (e : Event α ε) : Decidable (s.conforming e) :=
  match e with
  | .write buf _ => inferInstanceAs (Decidable (s.offered <+: buf))
  | .flush _ => inferInstanceAs (Decidable True)
  | .shutdown _ => inferInstanceAs (Decidable True)

-- All chunks that were put into a record, which is one more than what was accepted in between.
def chunks (s : Session τ α) : List (List α) :=
  if s.out.queue.isEmpty then
    s.accepted
  else
    s.accepted ++ [s.offered.take s.out.core.chunkLen]

end Session

def ChunkOk (chunk : List α) : Prop :=
  chunk ≠ [] ∧ chunk.length ≤ w.limit

structure Busy (start : τ) (accepted : List (List α)) (offered : List α)
    (out : Outbox (Core τ) α) (chunk part : List α) : Prop where
  chunkOk : w.ChunkOk chunk
  offered : chunk <+: offered
  len : out.core.chunkLen = chunk.length
  record : ∃ state bytes, w.encodeAll start accepted = .ok (state, bytes)
    ∧ w.encode state chunk = .ok (out.core.state, part ++ out.queue)
    ∧ out.received = bytes ++ part

inductive Sending (start : τ) (s : Session τ α) : Prop where
  | idle (hqueue : s.out.queue = [])
      (hall : w.encodeAll start s.accepted = .ok (s.out.core.state, s.out.received))
  | busy (chunk part : List α) (hbusy : w.Busy start s.accepted s.offered s.out chunk part)
      (hqueue : s.out.queue ≠ [])

structure Written (start : τ) (s : Session τ α) : Prop where
  chunks : ∀ chunk ∈ s.accepted, w.ChunkOk chunk
  sending : w.Sending start s

namespace Written

variable {w} {s : Session τ α}

variable (w) in
theorem new (start : τ) : w.Written start (.start start) where
  chunks := by simp [Session.start]
  sending := .idle rfl rfl

theorem report_drained (out : Outbox (Core τ) α) (buf chunk part : List α)
    (hchunks : ∀ chunk ∈ s.accepted, w.ChunkOk chunk)
    (hbusy : w.Busy start s.accepted buf out chunk part) (answers : List (Poll (Except ε Nat)))
    : w.Written start (s.report buf (w.drained out answers)) := by
  rcases out.drain_passes w.zero answers with ⟨front, queue, result, rest, hdrain, hsum, hdone⟩
  rcases hbusy.record with ⟨state, bytes, hall, hencode, hreceived⟩
  have hpart : w.Busy start s.accepted buf ⟨out.core, queue, out.received ++ front⟩ chunk
      (part ++ front) := by
    refine ⟨hbusy.chunkOk, hbusy.offered, hbusy.len, state, bytes, hall, ?_, ?_⟩
    . rw [append_assoc, hsum, hencode]
    . rw [hreceived, append_assoc]
  have hbusyNext (hne : result ≠ .ready (.ok ()))
      : w.Written start ⟨⟨out.core, queue, out.received ++ front⟩, s.accepted, buf⟩ := by
    refine ⟨hchunks, .busy chunk _ hpart ?_⟩
    intro hqueue
    exact hne (hdone.mpr hqueue)
  unfold drained
  rw [hdrain]
  match result with
  | .pending => exact hbusyNext (by simp)
  | .ready (.error e) => exact hbusyNext (by simp)
  | .ready (.ok ()) =>
    obtain rfl : queue = [] := hdone.mp rfl
    have hpos := length_pos_iff.mpr hbusy.chunkOk.left
    have hlen := hbusy.len
    have htake : buf.take out.core.chunkLen = chunk := by
      rw [hlen]
      exact (prefix_iff_eq_take.mp hbusy.offered).symm
    rcases hpart.record with ⟨state', bytes', hall', hencode', hreceived'⟩
    rw [append_nil] at hencode'
    dsimp only at hencode' hreceived'
    dsimp only [Session.report]
    rw [if_neg (by omega), htake]
    refine ⟨?_, .idle rfl ?_⟩
    . dsimp only
      rw [forall_mem_append, forall_mem_singleton]
      exact ⟨hchunks, hbusy.chunkOk⟩
    . dsimp only
      rw [hreceived']
      exact w.encodeAll_concat start state' _ s.accepted chunk bytes' _ hall' hencode'

theorem step (h : w.Written start s) (he : s.conforming e)
    : w.Written start (s.step w e) := by
  match e with
  | .flush _ => exact h
  | .shutdown _ => exact h
  | .write buf answers =>
    dsimp only [Session.step]
    unfold pollWrite
    cases h.sending with
    | busy chunk part hbusy hqueue =>
      rw [if_pos (by simpa using hqueue)]
      apply report_drained s.out buf chunk part h.chunks
      exact { hbusy with offered := hbusy.offered.trans he }
    | idle hqueue hall =>
      rw [if_neg (by simp [hqueue])]
      split
      . dsimp only [Session.report]
        exact ⟨h.chunks, .idle hqueue hall⟩
      . next hne =>
        have hne : buf ≠ [] := by simpa using hne
        split
        . exact ⟨h.chunks, .idle hqueue hall⟩
        . next state record hencode =>
          apply report_drained _ buf (buf.take w.limit) [] h.chunks
          refine ⟨⟨?_, length_take_le _ _⟩, take_prefix _ _, rfl, _, _, hall, hencode, ?_⟩
          . rw [ne_eq, take_eq_nil_iff]
            simp [hne, Nat.ne_of_gt w.limit_pos]
          . exact (append_nil _).symm

theorem received_eq (h : w.Written start s)
    : ∃ state bytes part, w.encodeAll start s.accepted = .ok (state, bytes)
      ∧ s.out.received = bytes ++ part
      ∧ (part = [] ∨ ∃ chunk state' queue, w.ChunkOk chunk ∧ queue ≠ []
        ∧ w.encode state chunk = .ok (state', part ++ queue)) := by
  cases h.sending with
  | idle hqueue hall => exact ⟨_, _, [], hall, (append_nil _).symm, Or.inl rfl⟩
  | busy chunk part hbusy hqueue =>
    rcases hbusy.record with ⟨state, bytes, hall, hencode, hreceived⟩
    exact ⟨state, bytes, part, hall, hreceived,
      Or.inr ⟨chunk, _, _, hbusy.chunkOk, hqueue, hencode⟩⟩

end Written

end RecordWriter
