import Blackwire.Lib.Bytes
import Blackwire.Lib.Poll
import Blackwire.Lib.Chunked
import Blackwire.Lib.Machine

/-!
This module contains the writing half of the SplitHTTP stream over HTTP/1.1, which is chunked. What
the inner stream answers in a call is an argument of the call.
-/

namespace Blackwire.SplitHttp

-- The loop fills an array from its end, which has enough room for the digits of a `usize`.
def hexDigits : Nat → Nat → Bytes → Bytes
  | 0, _, digits => digits
  | fuel + 1, n, digits =>
    if n = 0 then
      digits
    else
      let nibble := n % 16
      let digit := if nibble < 10 then 48 + nibble else 65 + (nibble - 10)
      hexDigits fuel (n / 16) (UInt8.ofNat digit :: digits)

def putChunkSizeHex (buf : Bytes) (value : Nat) : Bytes :=
  if value = 0 then
    buf ++ [48]
  else
    buf ++ hexDigits value value []

structure SplitHttpStream where
  writeBuf : Bytes
  received : Bytes

namespace SplitHttpStream

def new : SplitHttpStream := ⟨[], []⟩

variable {ε : Type}

def pollWrite (s : SplitHttpStream) (buf : Bytes) (answer : Poll (Except ε Nat))
    : SplitHttpStream × Poll (Except ε Nat) :=
  if buf.isEmpty then
    (s, .ready (.ok 0))
  else
    let writeBuf := putChunkSizeHex [] buf.length
    let writeBuf := writeBuf ++ [13, 10]
    let writeBuf := writeBuf ++ buf
    let writeBuf := writeBuf ++ [13, 10]
    let s := { s with writeBuf := writeBuf, received := s.received ++ answer.taken writeBuf }
    match answer with
    | .ready (.ok _) => (s, .ready (.ok buf.length))
    | .ready (.error e) => (s, .ready (.error e))
    | .pending => (s, .pending)

def pollShutdown (s : SplitHttpStream) (answer : Poll (Except ε Nat))
    (shutdown : Poll (Except ε Unit))
    : SplitHttpStream × Poll (Except ε Unit) :=
  let s := { s with received := s.received ++ answer.taken [48, 13, 10, 13, 10] }
  match answer with
  | .ready (.ok _) => (s, shutdown)
  | .ready (.error e) => (s, .ready (.error e))
  | .pending => (s, .pending)

end SplitHttpStream

structure Session where
  stream : SplitHttpStream
  accepted : Bytes

structure Event (ε : Type) where
  buf : Bytes
  answer : Poll (Except ε Nat)

namespace Session

def new : Session := ⟨.new, []⟩

def step {ε : Type} (s : Session) (e : Event ε) : Session :=
  let (stream, result) := s.stream.pollWrite e.buf e.answer
  match result with
  | .ready (.ok n) => ⟨stream, s.accepted ++ e.buf.take n⟩
  | _ => ⟨stream, s.accepted⟩

end Session

open List

theorem hexValue_digit (nibble : Nat) (h : nibble < 16)
    : Chunked.hexValue (UInt8.ofNat (if nibble < 10 then 48 + nibble else 65 + (nibble - 10)))
        = some nibble := by
  revert h
  revert nibble
  decide

theorem isHex_hexDigits (fuel n : Nat) (h : Chunked.IsHex digits)
    : Chunked.IsHex (hexDigits fuel n digits) := by
  induction fuel generalizing n digits with
  | zero => exact h
  | succ fuel ih =>
    unfold hexDigits
    split
    next => exact h
    apply ih
    unfold Chunked.IsHex
    rw [forall_mem_cons, hexValue_digit (n % 16) (by omega)]
    exact ⟨rfl, h⟩

theorem digitsValue_hexDigits (fuel n : Nat) (digits : Bytes) (hfuel : n ≤ fuel)
    : Chunked.digitsValue 0 (hexDigits fuel n digits) = Chunked.digitsValue n digits := by
  induction fuel generalizing n digits with
  | zero =>
    have hzero : n = 0 := by omega
    rw [hzero]
    rfl
  | succ fuel ih =>
    unfold hexDigits
    split
    next hzero => rw [hzero]
    rw [ih (n / 16) _ (by omega)]
    have hdiv := Nat.div_add_mod n 16
    simp only [Chunked.digitsValue, foldl_cons, hexValue_digit (n % 16) (by omega),
      Option.getD_some, hdiv]

def frame (buf : Bytes) : Bytes :=
  Chunked.chunk (putChunkSizeHex [] buf.length) buf

section

variable {buf : Bytes} (hbuf : buf ≠ [])

include hbuf

theorem putChunkSizeHex_eq
    : putChunkSizeHex [] buf.length = hexDigits buf.length buf.length [] := by
  unfold putChunkSizeHex
  rw [if_neg]
  . rfl
  . exact fun h => hbuf (length_eq_zero_iff.mp h)

theorem size_isHex : Chunked.IsHex (putChunkSizeHex [] buf.length) := by
  rw [putChunkSizeHex_eq hbuf]
  apply isHex_hexDigits
  exact fun b hb => absurd hb not_mem_nil

theorem size_value : Chunked.digitsValue 0 (putChunkSizeHex [] buf.length) = buf.length := by
  rw [putChunkSizeHex_eq hbuf, digitsValue_hexDigits _ _ _ (Nat.le_refl _)]
  rfl

theorem size_ne_nil : putChunkSizeHex [] buf.length ≠ [] := by
  intro hnil
  have hvalue := size_value hbuf
  rw [hnil] at hvalue
  exact hbuf (length_eq_zero_iff.mp hvalue.symm)

end

-- The inner stream has received whole chunks, and they hold what was accepted.
def Valid (s : Session) : Prop :=
  Chunked.decode s.stream.received = some s.accepted

instance (s : Session) : Decidable (Valid s) :=
  inferInstanceAs (Decidable (_ = _))

namespace Event

variable {ε : Type}

def completed (e : Event ε) : Bool :=
  e.buf.isEmpty || match e.answer with
    | .ready (.ok _) => true
    | _ => false

/--
If the inner stream takes bytes, it takes the whole chunk.
-/
def whole (e : Event ε) : Bool :=
  e.buf.isEmpty || match e.answer with
    | .ready (.ok n) => (frame e.buf).length ≤ n
    | _ => true

end Event

section

variable {ε : Type} (s : Session) (e : Event ε)

theorem step_of_isEmpty (h : e.buf = []) : s.step e = s := by
  simp [Session.step, SplitHttpStream.pollWrite, h]

theorem valid_of_not_completed (h : e.completed = false) (hs : Valid s) : Valid (s.step e) := by
  unfold Event.completed at h
  simp only [Bool.or_eq_false_iff] at h
  rcases h with ⟨hbuf, hanswer⟩
  unfold Valid Session.step SplitHttpStream.pollWrite at *
  rw [if_neg (by simpa using hbuf)]
  cases hcase : e.answer with
  | pending => simpa [Poll.taken] using hs
  | ready result =>
    cases result with
    | error err => simpa [Poll.taken] using hs
    | ok n =>
      rw [hcase] at hanswer
      cases hanswer

theorem step_of_taken (hbuf : e.buf ≠ []) (h : e.answer = .ready (.ok n))
    : (s.step e).stream.received = s.stream.received ++ (frame e.buf).take n
        ∧ (s.step e).accepted = s.accepted ++ e.buf := by
  unfold Session.step SplitHttpStream.pollWrite
  rw [if_neg (by simpa using hbuf), h]
  simp [Poll.taken, frame, Chunked.chunk, Chunked.crlf]

theorem valid_taken (hbuf : e.buf ≠ []) (h : e.answer = .ready (.ok n)) (hs : Valid s)
    : Valid (s.step e) ↔ (frame e.buf).length ≤ n := by
  have hhex := size_isHex hbuf
  have hvalue := size_value hbuf
  have hne := size_ne_nil hbuf
  rcases step_of_taken s e hbuf h with ⟨hreceived, haccepted⟩
  unfold Valid at *
  rw [hreceived, haccepted]
  constructor
  . intro hdecode
    have hrest := Chunked.decode_append_part hhex hne hbuf hvalue hs
      (take_append_drop n (frame e.buf)) hdecode
    exact drop_eq_nil_iff.mp hrest
  . intro hle
    rw [take_of_length_le hle]
    exact Chunked.decode_append_chunk hhex hne hbuf hvalue hs

theorem valid_step (hs : Valid s)
    : ((e.completed = true → Valid (s.step e)) ↔ e.whole = true)
        ∧ (e.whole = true → Valid (s.step e)) := by
  by_cases hbuf : e.buf = []
  . have hsame := step_of_isEmpty s e hbuf
    simp [hsame, hs, Event.whole, hbuf]
  have hnonempty : e.buf.isEmpty = false := by simpa using hbuf
  cases hanswer : e.answer with
  | ready result =>
    cases result with
    | ok n =>
      have hvalid := valid_taken s e hbuf hanswer hs
      simp [Event.completed, Event.whole, hnonempty, hanswer, hvalid]
    | error err =>
      have hnot : e.completed = false := by simp [Event.completed, hnonempty, hanswer]
      simp [Event.whole, hanswer, valid_of_not_completed s e hnot hs]
  | pending =>
    have hnot : e.completed = false := by simp [Event.completed, hnonempty, hanswer]
    simp [Event.whole, hanswer, valid_of_not_completed s e hnot hs]

end

theorem valid_run {ε : Type} (s : Session) (es : List (Event ε)) (hs : Valid s)
    : Machine.Allowed Session.step (fun s e => e.completed = true → Valid (s.step e)) s es
        ↔ ∀ e ∈ es, e.whole = true := by
  induction es generalizing s with
  | nil => exact ⟨fun _ e he => absurd he not_mem_nil, fun _ => trivial⟩
  | cons e es ih =>
    rcases valid_step s e hs with ⟨hiff, hnext⟩
    rw [forall_mem_cons]
    constructor
    . intro h
      have hwhole := hiff.mp h.left
      exact ⟨hwhole, (ih (s.step e) (hnext hwhole)).mp h.right⟩
    . intro h
      exact ⟨hiff.mpr h.left, (ih (s.step e) (hnext h.left)).mpr h.right⟩

theorem chunked_writer_valid {ε : Type} (es : List (Event ε))
    : Machine.Allowed Session.step (fun s e => e.completed = true → Valid (s.step e)) .new es
        ↔ ∀ e ∈ es, e.whole = true :=
  valid_run .new es rfl

theorem chunked_writer_cuts_chunk
    : let e : Event Unit := ⟨[104, 105], .ready (.ok 3)⟩
      e.completed = true
        ∧ (Session.new.step e).stream.received = [50, 13, 10]
        ∧ (Session.new.step e).accepted = [104, 105]
        ∧ ¬Valid (Session.new.step e) := by
  decide

theorem valid_foldl {ε : Type} (es : List (Event ε)) (hes : ∀ e ∈ es, e.whole = true)
    : Valid (es.foldl Session.step .new) :=
  es.foldlRecOn _ rfl fun s hs e he => (valid_step s e hs).right (hes e he)

section

variable {ε : Type} (polls : List (Poll (Except ε Nat) × Poll (Except ε Unit)))

def SplitHttpStream.shutdown (s : SplitHttpStream) : SplitHttpStream :=
  polls.foldl (fun s poll => (s.pollShutdown poll.fst poll.snd).fst) s

def wroteLast (poll : Poll (Except ε Nat) × Poll (Except ε Unit)) : Bool :=
  poll.fst matches .ready (.ok _)

-- Each poll offers the last chunk again, also when only the inner shutdown was not ready.
theorem received_shutdown (hpolls : ∀ poll ∈ polls, ∀ n, poll.fst = .ready (.ok n) → 5 ≤ n)
    (s : SplitHttpStream)
    : (s.shutdown polls).received
        = s.received ++ (replicate (polls.countP wroteLast) [48, 13, 10, 13, 10]).flatten := by
  induction polls generalizing s with
  | nil => simp [SplitHttpStream.shutdown]
  | cons poll polls ih =>
    rw [forall_mem_cons] at hpolls
    rcases poll with ⟨answer, shutdown⟩
    rw [show s.shutdown _ = (s.pollShutdown answer shutdown).fst.shutdown polls from rfl,
      ih hpolls.right]
    match answer with
    | .pending => simp [SplitHttpStream.pollShutdown, Poll.taken, wroteLast]
    | .ready (.error e) => simp [SplitHttpStream.pollShutdown, Poll.taken, wroteLast]
    | .ready (.ok n) =>
      have htake : ([48, 13, 10, 13, 10] : Bytes).take n = [48, 13, 10, 13, 10] :=
        take_of_length_le (hpolls.left n rfl)
      rw [countP_cons_of_pos rfl, replicate_succ]
      simp [SplitHttpStream.pollShutdown, Poll.taken, htake]

theorem shutdown_completes_iff (es : List (Event ε)) (hes : ∀ e ∈ es, e.whole = true)
    (hpolls : ∀ poll ∈ polls, ∀ n, poll.fst = .ready (.ok n) → 5 ≤ n)
    : let s := es.foldl Session.step .new
      Chunked.isMessage (s.stream.shutdown polls).received s.accepted = true
        ↔ polls.countP wroteLast = 1 := by
  intro s
  rw [received_shutdown polls hpolls]
  exact Chunked.isMessage_append_last _ _ (valid_foldl es hes) _

end

def polledTwice : List (Poll (Except Unit Nat) × Poll (Except Unit Unit)) :=
  [(.ready (.ok 5), .pending), (.ready (.ok 5), .ready (.ok ()))]

theorem shutdown_polled_twice
    : let s := Session.new.step (ε := Unit) ⟨[104, 105], .ready (.ok 7)⟩
      ¬ Chunked.isMessage (s.stream.shutdown polledTwice).received s.accepted = true := by
  have hiff := shutdown_completes_iff polledTwice [⟨[104, 105], .ready (.ok 7)⟩] (by decide)
    (by simp +contextual [polledTwice])
  exact fun h => absurd (hiff.mp h) (by decide)

end Blackwire.SplitHttp
