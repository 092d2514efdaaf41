import Blackwire.Lib.Machine
import Blackwire.Transport.Reality.Impl.Tls13

/-!
This module contains the way of the client's bytes through the REALITY server: `accept_inner` reads
the ClientHello and mirrors it to the cover connection, and `do_connected_fallback` relays what
follows. The two are a machine with one phase for every await point, and the events are what the
client, the cover and the clock do. Its runs that hand the cover exactly the client's bytes are
characterised.
-/

namespace Blackwire.Reality

open Bytes

def hsClientHello : UInt8 := 0x01

def maxClientHelloSize : Nat := 64 * 1024
def tlsMaxPlaintextRecord : Nat := 16 * 1024
def readChunkSize : Nat := 8 * 1024
def relayBufSize : Nat := 16 * 1024

structure HelloBuffer where
  message : Bytes
  expectedLen : Option Nat

namespace HelloBuffer

def empty : HelloBuffer := ⟨[], none⟩

variable (h : HelloBuffer)

def learnLength : Except ProxyError HelloBuffer :=
  if h.expectedLen = none ∧ h.message.length ≥ 4 then
    if h.message.head? ≠ some hsClientHello then
      .error (.protocol ("expected ClientHello handshake, got "
        ++ hexPadded 2 (byteAt h.message 0)))
    else
      let total := ofBigEndian ((h.message.drop 1).take 3) + 4
      if total > maxClientHelloSize then
        .error (.protocol ("ClientHello length " ++ toString total ++ " exceeds "
          ++ toString maxClientHelloSize))
      else
        .ok { h with expectedLen := some total }
  else
    .ok h

def addChunk (chunk : Bytes) : Except ProxyError HelloBuffer :=
  if h.message.length + chunk.length > maxClientHelloSize then
    .error (.protocol ("ClientHello exceeds " ++ toString maxClientHelloSize ++ " bytes"))
  else
    learnLength { h with message := h.message ++ chunk }

def endRecord : Except ProxyError (Option Bytes) :=
  match h.expectedLen with
  | none => .ok none
  | some expected =>
    if h.message.length = expected then
      .ok (some h.message)
    else if h.message.length > expected then
      .error (.protocol "ClientHello record contains trailing handshake bytes")
    else
      .ok none

end HelloBuffer

def checkHelloHeader (header : Bytes) : Except ProxyError Nat :=
  if header.head? ≠ some rtHandshake then
    .error (.protocol ("expected ClientHello TLS record, got type "
      ++ hexPadded 2 (byteAt header 0)))
  else
    let recordLen := u16At header 3
    if recordLen = 0 ∨ recordLen > tlsMaxPlaintextRecord then
      .error (.protocol ("invalid ClientHello TLS record length " ++ toString recordLen))
    else
      .ok recordLen

inductive Phase where
  | readHeader (got : Bytes)
  | mirrorHeader (header left : Bytes)
  | readChunk (remaining : Nat) (got : Bytes)
  | mirrorChunk (remaining : Nat) (chunk left : Bytes)
  | relayRead
  | relayWrite (left : Bytes)
  | relayEnded
  | authenticated
deriving DecidableEq

namespace Phase

def pending : Phase → Bytes
  | readHeader got => got
  | mirrorHeader _ left => left
  | readChunk _ got => got
  | mirrorChunk _ _ left => left
  | relayWrite left => left
  | relayRead => []
  | relayEnded => []
  | authenticated => []

def wanted : Phase → Nat
  | readHeader got => 5 - got.length
  | readChunk remaining got => min remaining readChunkSize - got.length
  | relayRead => relayBufSize
  | _ => 0

def isRead : Phase → Bool
  | readHeader _ => true
  | readChunk _ _ => true
  | relayRead => true
  | _ => false

def isWrite : Phase → Bool
  | mirrorHeader _ _ => true
  | mirrorChunk _ _ _ => true
  | relayWrite _ => true
  | _ => false

-- The phases inside `read_client_hello_message`, which runs under a timeout.
def inHello : Phase → Bool
  | readHeader _ => true
  | mirrorHeader _ _ => true
  | readChunk _ _ => true
  | mirrorChunk _ _ _ => true
  | _ => false

end Phase

structure Acceptor where
  phase : Phase
  hello : HelloBuffer
  cover : Bytes

namespace Acceptor

def start : Acceptor := ⟨.readHeader [], .empty, []⟩

variable (s : Acceptor)

def doConnectedFallback : Acceptor :=
  { s with phase := .relayRead }

section

variable (authenticates : Bytes → Bool)

def classify (s : Acceptor) (message : Bytes) : Acceptor :=
  if authenticates message then
    { s with phase := .authenticated }
  else
    s.doConnectedFallback

def afterHeader (header : Bytes) : Acceptor :=
  match checkHelloHeader header with
  | .error _ => s.doConnectedFallback
  | .ok recordLen => { s with phase := .readChunk recordLen [] }

def afterRecord (s : Acceptor) : Acceptor :=
  match s.hello.endRecord with
  | .error _ => s.doConnectedFallback
  | .ok (some message) => s.classify authenticates message
  | .ok none => { s with phase := .readHeader [] }

def afterChunk (s : Acceptor) (remaining : Nat) (chunk : Bytes) : Acceptor :=
  match s.hello.addChunk chunk with
  | .error _ => s.doConnectedFallback
  | .ok hello =>
    let remaining := remaining - chunk.length
    if remaining ≠ 0 then
      { s with phase := .readChunk remaining [], hello }
    else
      afterRecord authenticates { s with hello }

def recv (bytes : Bytes) : Acceptor :=
  match s.phase with
  | .readHeader got =>
    let got := got ++ bytes
    if got.length < 5 then
      { s with phase := .readHeader got }
    else
      { s with phase := .mirrorHeader got got }
  | .readChunk remaining got =>
    let got := got ++ bytes
    if got.length < min remaining readChunkSize then
      { s with phase := .readChunk remaining got }
    else
      { s with phase := .mirrorChunk remaining got got }
  | .relayRead => { s with phase := .relayWrite bytes }
  | _ => s

def wrote (s : Acceptor) (n : Nat) : Acceptor :=
  match s.phase with
  | .mirrorHeader header left =>
    let s := { s with cover := s.cover ++ left.take n }
    if n < left.length then
      { s with phase := .mirrorHeader header (left.drop n) }
    else
      s.afterHeader header
  | .mirrorChunk remaining chunk left =>
    let s := { s with cover := s.cover ++ left.take n }
    if n < left.length then
      { s with phase := .mirrorChunk remaining chunk (left.drop n) }
    else
      s.afterChunk authenticates remaining chunk
  | .relayWrite left =>
    let s := { s with cover := s.cover ++ left.take n }
    if n < left.length then
      { s with phase := .relayWrite (left.drop n) }
    else
      { s with phase := .relayRead }
  | _ => s

end

def cut : Acceptor :=
  if s.phase.inHello then
    s.doConnectedFallback
  else
    { s with phase := .relayEnded }

end Acceptor

inductive Event where
  | recv (bytes : Bytes)
  | wrote (n : Nat)
  | clientEnded
  | coverFailed
  | timeout
  | idle

namespace Event

def sent : List Event → Bytes
  | [] => []
  | .recv bytes :: es => bytes ++ sent es
  | _ :: es => sent es

def isCut : Event → Bool
  | .recv _ => false
  | .wrote _ => false
  | _ => true

end Event

namespace Acceptor

def step (authenticates : Bytes → Bool) (s : Acceptor) (e : Event) : Acceptor :=
  match e with
  | .recv bytes => s.recv bytes
  | .wrote n => s.wrote authenticates n
  | .clientEnded => s.cut
  | .coverFailed => s.cut
  | .timeout => s.cut
  | .idle => s.cut

def Enabled (s : Acceptor) (e : Event) : Prop :=
  match e with
  | .recv bytes => bytes ≠ [] ∧ bytes.length ≤ s.phase.wanted
  | .wrote n => s.phase.isWrite ∧ 0 < n ∧ n ≤ s.phase.pending.length
  | .clientEnded => s.phase.isRead
  | .coverFailed => s.phase.isWrite
  | .timeout => s.phase.inHello
  | .idle => s.phase = .relayRead

instance (s : Acceptor) (e : Event) : Decidable (s.Enabled e) :=
  match e with
  | .recv bytes => inferInstanceAs (Decidable (bytes ≠ [] ∧ bytes.length ≤ s.phase.wanted))
  | .wrote n =>
    inferInstanceAs (Decidable (s.phase.isWrite ∧ 0 < n ∧ n ≤ s.phase.pending.length))
  | .clientEnded => inferInstanceAs (Decidable (s.phase.isRead = true))
  | .coverFailed => inferInstanceAs (Decidable (s.phase.isWrite = true))
  | .timeout => inferInstanceAs (Decidable (s.phase.inHello = true))
  | .idle => inferInstanceAs (Decidable (s.phase = .relayRead))

/--
No bytes are on their way to the cover when an await is cut short.
-/
def CleanCut (s : Acceptor) (e : Event) : Prop :=
  e.isCut → s.phase.pending = []

instance (s : Acceptor) (e : Event) : Decidable (s.CleanCut e) :=
  inferInstanceAs (Decidable (_ → _))

open List Machine

variable (authenticates : Bytes → Bool)

def wire (s : Acceptor) : Bytes :=
  s.cover ++ s.phase.pending

theorem wire_eq {s : Acceptor} {phase : Phase} (h : s.phase = phase)
    : s.wire = s.cover ++ phase.pending := by
  rw [wire, h]

theorem wire_start : start.wire = [] := by
  rfl

variable (s : Acceptor) (es : List Event)

@[simp]
theorem wire_doConnectedFallback : s.doConnectedFallback.wire = s.cover := by
  simp [doConnectedFallback, wire, Phase.pending]

@[simp]
theorem wire_classify (message : Bytes)
    : (s.classify authenticates message).wire = s.cover := by
  unfold classify
  split
  . simp [wire, Phase.pending]
  . simp

@[simp]
theorem wire_afterHeader (header : Bytes)
    : (s.afterHeader header).wire = s.cover := by
  unfold afterHeader
  split
  . simp
  . simp [wire, Phase.pending]

@[simp]
theorem wire_afterRecord : (s.afterRecord authenticates).wire = s.cover := by
  unfold afterRecord
  split
  . simp
  . simp
  . simp [wire, Phase.pending]

@[simp]
theorem wire_afterChunk (remaining : Nat) (chunk : Bytes)
    : (s.afterChunk authenticates remaining chunk).wire = s.cover := by
  unfold afterChunk
  split
  . simp
  dsimp only
  split
  . simp [wire, Phase.pending]
  . simp

theorem wire_recv {s : Acceptor} {bytes : Bytes} (h : s.Enabled (.recv bytes))
    : (s.recv bytes).wire = s.wire ++ bytes := by
  have hwanted : 0 < s.phase.wanted := by
    have := length_pos_iff.mpr h.left
    have := h.right
    omega
  unfold recv
  split
  . dsimp only
    split <;> simp [wire, Phase.pending, *]
  . dsimp only
    split <;> simp [wire, Phase.pending, *]
  . simp [wire, Phase.pending, *]
  . next hheader hchunk hrelay =>
    cases hphase : s.phase with
    | readHeader got => exact absurd hphase (hheader got)
    | readChunk remaining got => exact absurd hphase (hchunk remaining got)
    | relayRead => exact absurd hphase hrelay
    | _ => simp [Phase.wanted] at hwanted

theorem wire_wrote (n : Nat) : (s.wrote authenticates n).wire = s.wire := by
  have take_all (left : Bytes) (h : ¬ n < left.length) : left.take n = left := by
    apply take_of_length_le
    omega
  unfold wrote
  split
  . next header left hphase =>
    rw [wire_eq hphase]
    split
    . simp [wire, Phase.pending]
    . next hn => simp [Phase.pending, take_all left hn]
  . next remaining chunk left hphase =>
    rw [wire_eq hphase]
    split
    . simp [wire, Phase.pending]
    . next hn => simp [Phase.pending, take_all left hn]
  . next left hphase =>
    rw [wire_eq hphase]
    split
    . simp [wire, Phase.pending]
    . next hn => simp [wire, Phase.pending, take_all left hn]
  . rfl

theorem wire_cut : s.cut.wire = s.cover := by
  unfold cut
  split
  . simp
  . simp [wire, Phase.pending]

theorem step_eq_cut (h : e.isCut) : s.step authenticates e = s.cut := by
  cases e <;> first | rfl | simp [Event.isCut] at h

theorem sent_cons_of_isCut (h : e.isCut)
    : Event.sent (e :: es) = Event.sent es := by
  cases e <;> first | rfl | simp [Event.isCut] at h

theorem wire_step_of_cleanCut (henabled : s.Enabled e) (hclean : s.CleanCut e)
    : (s.step authenticates e).wire = s.wire ++ Event.sent [e] := by
  by_cases h : e.isCut
  . rw [step_eq_cut authenticates s h]
    rw [wire_cut]
    rw [sent_cons_of_isCut [] h]
    simp [wire, Event.sent, hclean h]
  . cases e with
    | recv bytes =>
      simp only [Event.sent, append_nil]
      apply wire_recv
      assumption
    | wrote n =>
      simp only [Event.sent, append_nil]
      apply wire_wrote
    | _ => simp [Event.isCut] at h

theorem wire_step_of_not_cleanCut (h : ¬ s.CleanCut e)
    : (s.step authenticates e).wire.length < (s.wire ++ Event.sent [e]).length := by
  obtain ⟨hcut, hpending⟩ := Classical.not_imp.mp h
  have := length_pos_iff.mpr hpending
  rw [step_eq_cut authenticates s hcut]
  rw [wire_cut]
  simp only [wire, length_append]
  omega

theorem sent_cons
    : Event.sent (e :: es) = Event.sent [e] ++ Event.sent es := by
  cases e <;> simp [Event.sent]

theorem wire_run_length_le (hes : Allowed (step authenticates) Enabled s es)
    : (es.foldl (step authenticates) s).wire.length ≤ (s.wire ++ Event.sent es).length := by
  induction es generalizing s with
  | nil => simp [Event.sent]
  | cons e es ih =>
    have hrun := ih (s.step authenticates e) hes.right
    have hstep : (s.step authenticates e).wire.length ≤ (s.wire ++ Event.sent [e]).length := by
      by_cases h : s.CleanCut e
      . rw [wire_step_of_cleanCut authenticates s hes.left h]
      . apply Nat.le_of_lt
        apply wire_step_of_not_cleanCut
        assumption
    rw [sent_cons]
    simp only [foldl_cons, length_append] at *
    omega

theorem wire_run_iff (hes : Allowed (step authenticates) Enabled s es)
    : (es.foldl (step authenticates) s).wire = s.wire ++ Event.sent es
        ↔
      Allowed (step authenticates) CleanCut s es := by
  induction es generalizing s with
  | nil => simp [Event.sent, Allowed]
  | cons e es ih =>
    rw [foldl_cons]
    rw [sent_cons]
    by_cases h : s.CleanCut e
    . rw [← append_assoc]
      rw [← wire_step_of_cleanCut authenticates s hes.left h]
      rw [ih _ hes.right]
      simp [Allowed, h]
    . -- What is missing after this step is never made up for.
      have hstep := wire_step_of_not_cleanCut authenticates s h
      have hrun := wire_run_length_le authenticates (s.step authenticates e) es hes.right
      constructor
      . intro heq
        have := congrArg List.length heq
        simp only [length_append] at *
        omega
      . intro hall
        exact absurd hall.left h

end Acceptor
end Blackwire.Reality
