import Blackwire.Lib.Table
import Blackwire.Transport.Tun.Packet
import Blackwire.Lib.Machine

/-!
This module contains the bridge that ends the TCP connections of the TUN device and forwards their
bytes to a local SOCKS listener, with its verification: the table of the flows, the task of each
flow and the flow control. A flow keeps what was sent through its channel and to the device.
-/

namespace Blackwire.Tun

def tcpFin : Nat := 0x01
def tcpSyn : Nat := 0x02
def tcpRst : Nat := 0x04
def tcpPsh : Nat := 0x08
def tcpAck : Nat := 0x10

def flowChanCap : Nat := 256
def serverIsn : UInt32 := 0x42570001
def tcpSendWindowCap : Nat := 4 * 1024 * 1024
def tcpWindowScale : UInt8 := 7

structure SocketAddr where
  ip : IpAddr
  port : Nat
deriving DecidableEq

abbrev Key := SocketAddr × SocketAddr

def IpPacket.key (packet : IpPacket) : Key :=
  (⟨packet.src, packet.srcPort⟩, ⟨packet.dst, packet.dstPort⟩)

structure TcpHeader where
  seq : UInt32
  ack : UInt32
  flags : Nat
  window : Nat
  windowScale : Option Nat

-- Every option that is skipped has at least one byte, so the length is enough fuel.
def parseWindowScale (options : Bytes) : (fuel : Nat) → Option Nat
  | 0 => none
  | fuel + 1 =>
    match options with
    | [] => none
    | kind :: rest =>
      if kind = 0 then
        none
      else if kind = 1 then
        parseWindowScale rest fuel
      else
        match rest with
        | [] => none
        | len :: data =>
          if len.toNat < 2 ∨ options.length < len.toNat then
            none
          else if kind = 3 ∧ len = 3 then
            data.head?.map (·.toNat)
          else
            parseWindowScale (options.drop len.toNat) fuel

namespace TcpHeader

def has (tcp : TcpHeader) (flag : Nat) : Bool :=
  tcp.flags &&& flag ≠ 0

def fromPacket (packet : IpPacket) (raw : Bytes) : Option TcpHeader := do
  let tcp := packet.transportOffset
  guard (packet.transportOffset ≤ packet.payloadOffset)
  let headerLen := packet.payloadOffset - packet.transportOffset
  guard (tcp + 15 < raw.length)
  let flags ← packet.tcpFlags
  let windowScale ←
    if flags &&& tcpSyn ≠ 0 then do
      let options ← Bytes.slice raw (tcp + 20) (tcp + headerLen)
      pure (parseWindowScale options options.length)
    else
      pure none
  return ⟨← packet.tcpSeq, ← packet.tcpAck, flags, Bytes.u16At raw (tcp + 14), windowScale⟩

end TcpHeader

def scaledWindow (window scale : Nat) : Nat :=
  window <<< min scale 14

-- A packet to the client. The addresses are those of the flow.
structure Segment where
  seq : UInt32
  ack : UInt32
  flags : Nat
  options : Bytes
  payload : Bytes

inductive Task where
  | connecting
  | selecting
  | writing (rest : Bytes)
  | waiting (payload : Bytes)
  | resetting
  | ended
deriving DecidableEq

structure Flow where
  client : SocketAddr
  remote : SocketAddr
  clientIsn : UInt32
  serverSeq : UInt32
  clientAckSeen : UInt32
  clientWindowSeen : Nat
  clientAck : UInt32
  queue : List Bytes
  task : Task
  queued : Bytes
  taken : Bytes
  written : Bytes
  finished : Bool
  out : List Segment

inductive FlowEvent where
  | connected
  | failed
  | recv
  | wrote (n : Nat)
  | read (bytes : Bytes)
  | windowOpened
  | cancelled
  | resetSent
deriving DecidableEq

namespace Flow

variable (f : Flow)

def sendTcp (flags : Nat) (payload : Bytes) : Flow :=
  { f with out := f.out ++ [⟨f.serverSeq, f.clientAck, flags, [], payload⟩] }

def sendControl (ack : UInt32) (flags : Nat) : Flow :=
  { f with out := f.out ++ [⟨f.serverSeq, ack, flags, [], []⟩] }

def isOpen : Bool :=
  f.task ≠ .ended

def push (payload : Bytes) : Flow :=
  { f with queue := f.queue ++ [payload], queued := f.queued ++ payload }

def windowIsOpen (payloadLen : Nat) : Bool :=
  let inFlight := (f.serverSeq - f.clientAckSeen).toNat
  let recvWindow := min f.clientWindowSeen tcpSendWindowCap
  min (inFlight + payloadLen) (2 ^ 32 - 1) ≤ recvWindow

def recv (payload : Bytes) (queue : List Bytes) : Flow :=
  { f with
    queue := queue
    clientAck := f.clientAck + UInt32.ofNat payload.length
    taken := f.taken ++ payload
    task := .writing payload }

def wrote (rest : Bytes) (n : Nat) : Flow :=
  { f with
    written := f.written ++ rest.take n
    task := if rest.length ≤ n then .selecting else .writing (rest.drop n) }

def step (e : FlowEvent) : Flow :=
  match f.task, e with
  | .connecting, .connected => { f with task := .selecting }
  | .connecting, .failed => { f with task := .resetting }
  | .selecting, .recv =>
    match f.queue with
    | payload :: queue => f.recv payload queue
    | [] => f
  | .selecting, .read [] =>
    { f.sendTcp (tcpFin ||| tcpAck) [] with serverSeq := f.serverSeq + 1, task := .ended }
  | .selecting, .read bytes => { f with task := .waiting bytes }
  | .selecting, .failed => { f with task := .resetting }
  | .selecting, .cancelled => { f with task := .ended }
  | .writing rest, .wrote n => f.wrote rest n
  | .writing _, .failed => { f with task := .resetting }
  | .waiting payload, .windowOpened =>
    { f.sendTcp (tcpPsh ||| tcpAck) payload with
      serverSeq := f.serverSeq + UInt32.ofNat payload.length
      task := .selecting }
  | .resetting, .resetSent => { f.sendTcp (tcpRst ||| tcpAck) [] with task := .ended }
  | _, _ => f

def enabled (attached : Bool) (e : FlowEvent) : Bool :=
  match f.task, e with
  | .connecting, .connected => true
  | .connecting, .failed => true
  | .selecting, .recv => !f.queue.isEmpty
  | .selecting, .read bytes => bytes.length ≤ 16 * 1024
  | .selecting, .failed => true
  | .selecting, .cancelled => !attached
  | .writing rest, .wrote n => n ≤ rest.length
  | .writing _, .failed => true
  | .waiting payload, .windowOpened => f.windowIsOpen payload.length
  | .resetting, .resetSent => true
  | _, _ => false

end Flow

structure Entry where
  flow : Nat
  lastSeen : Nat
  clientNextSeq : UInt32
  clientWindowScale : Nat

structure TcpBridgeTable where
  entries : List (Key × Entry)
  idleTimeout : Nat
  maxEntries : Nat
  flows : Table Nat Flow
  created : Nat

namespace TcpBridgeTable

def new (idleTimeout maxEntries : Nat) : TcpBridgeTable :=
  ⟨[], idleTimeout, max maxEntries 1, .empty, 0⟩

variable (b : TcpBridgeTable)

def get (key : Key) : Option Entry :=
  (b.entries.find? (·.fst = key)).map (·.snd)

def remove (key : Key) : TcpBridgeTable :=
  { b with entries := b.entries.filter (·.fst ≠ key) }

def setEntry (key : Key) (entry : Entry) : TcpBridgeTable :=
  { b with entries := b.entries.map fun e => if e.fst = key then (key, entry) else e }

def setFlow (i : Nat) (f : Flow → Flow) : TcpBridgeTable :=
  { b with flows := fun j => if j = i then (b.flows i).map f else b.flows j }

def isAttached (i : Nat) : Bool :=
  b.entries.any (·.snd.flow = i)

def evictIdle (now : Nat) : TcpBridgeTable :=
  { b with entries := b.entries.filter fun e => now - e.snd.lastSeen ≤ b.idleTimeout }

-- The order of the list is the order in which the map is iterated.
def evictOldest : TcpBridgeTable :=
  match b.entries.find? fun e => b.entries.all fun e' => e.snd.lastSeen ≤ e'.snd.lastSeen with
  | some (key, _) => b.remove key
  | none => b

def makeRoom (now : Nat) : TcpBridgeTable :=
  let b := b.evictIdle now
  if b.entries.length ≥ b.maxEntries then b.evictOldest else b

def openFlow (key : Key) (tcp : TcpHeader) (now : Nat) : Except String TcpBridgeTable :=
  let b := b.makeRoom now
  if b.entries.length ≥ b.maxEntries then
    .error s!"TCP bridge: flow table full ({b.maxEntries})"
  else
    let clientNextSeq := tcp.seq + 1
    let serverSeq := serverIsn ^^^ UInt32.ofNat key.fst.port
    let scale := tcp.windowScale.getD 0
    let flow : Flow := {
      client := key.fst
      remote := key.snd
      clientIsn := tcp.seq
      serverSeq := serverSeq + 1
      clientAckSeen := serverSeq + 1
      clientWindowSeen := max (scaledWindow tcp.window scale) 1
      clientAck := clientNextSeq
      queue := []
      task := .connecting
      queued := []
      taken := []
      written := []
      finished := false
      out := [⟨serverSeq, clientNextSeq, tcpSyn ||| tcpAck, [1, 3, 3, tcpWindowScale], []⟩] }
    .ok { b with
      entries := b.entries ++ [(key, ⟨b.created, now, clientNextSeq, scale⟩)]
      flows := b.flows.insert b.created flow
      created := b.created + 1 }

section

variable (key : Key) (entry : Entry) (tcp : TcpHeader)

def touch (now : Nat) : TcpBridgeTable :=
  let b := b.setEntry key { entry with lastSeen := now }
  if tcp.has tcpAck then
    b.setFlow entry.flow fun f =>
      { f with
        clientAckSeen := tcp.ack
        clientWindowSeen := max (scaledWindow tcp.window entry.clientWindowScale) 1 }
  else
    b

def finish : TcpBridgeTable :=
  let b := b.setFlow entry.flow fun f =>
    { f.sendControl (tcp.seq + 1) tcpAck with finished := true }
  b.remove key

def deliver (payload : Bytes) (now : Nat) : TcpBridgeTable :=
  let clientNextSeq := tcp.seq + UInt32.ofNat payload.length
  let b := b.setEntry key { entry with lastSeen := now, clientNextSeq := clientNextSeq }
  let b := b.setFlow entry.flow (·.sendControl clientNextSeq tcpAck)
  if (b.flows entry.flow).any (·.isOpen) then
    b.setFlow entry.flow (·.push payload)
  else
    b.remove key

end

def forward (packet : IpPacket) (raw : Bytes) (now : Nat) : Except String TcpBridgeTable :=
  if packet.protocol ≠ .tcp then
    .ok b
  else
    match TcpHeader.fromPacket packet raw with
    | none => .error "TCP bridge: missing TCP metadata"
    | some tcp =>
      let key := packet.key
      if tcp.has tcpRst then
        .ok (b.remove key)
      else
        match b.get key with
        | none => if tcp.has tcpSyn then b.openFlow key tcp now else .ok b
        | some entry =>
          let b := b.touch key entry tcp now
          if tcp.has tcpFin then
            .ok (b.finish key entry tcp)
          else
            match packet.payload raw with
            | none => .ok b
            | some [] => .ok b
            | some payload => .ok (b.deliver key entry tcp payload now)

end TcpBridgeTable

inductive Event where
  | packet (raw : Bytes) (now : Nat)
  | evict (now : Nat)
  | flow (i : Nat) (e : FlowEvent)

namespace TcpBridgeTable

def step (b : TcpBridgeTable) (e : Event) : TcpBridgeTable :=
  match e with
  | .packet raw now =>
    match parseIpPacket raw with
    | none => b
    | some packet =>
      match b.forward packet raw now with
      | .ok b => b
      | .error _ => b
  | .evict now => b.evictIdle now
  | .flow i e => b.setFlow i (·.step e)

structure Arrival where
  tcp : TcpHeader
  payload : Bytes
  id : Nat
  flow : Flow

def arrival (b : TcpBridgeTable) (raw : Bytes) : Option Arrival := do
  let packet ← parseIpPacket raw
  guard (packet.protocol = .tcp)
  let tcp ← TcpHeader.fromPacket packet raw
  guard (!tcp.has tcpRst)
  let entry ← b.get packet.key
  let flow ← b.flows entry.flow
  return ⟨tcp, (packet.payload raw).getD [], entry.flow, flow⟩

-- A call of `forward` waits until there is room in the channel or nobody is listening any more.
def enabled (b : TcpBridgeTable) (e : Event) : Bool :=
  match e with
  | .packet raw _ =>
    match b.arrival raw with
    | some a =>
      a.tcp.has tcpFin || a.payload.isEmpty || a.flow.queue.length < flowChanCap
        || !a.flow.isOpen
    | none => true
  | .evict _ => true
  | .flow i e => (b.flows i).any (·.enabled (b.isAttached i) e)

end TcpBridgeTable

open List Machine

namespace Flow

def seqAfter (f : Flow) (n : Nat) : UInt32 :=
  f.clientIsn + 1 + UInt32.ofNat n

def Backed (f : Flow) (ack : UInt32) : Prop :=
  ∃ n ≤ f.queued.length + f.finished.toNat, ack = f.seqAfter n

def Wrote (f : Flow) : Prop :=
  match f.task with
  | .writing rest => f.written ++ rest = f.taken
  | .resetting => f.written <+: f.taken
  | .ended => f.written <+: f.taken
  | _ => f.written = f.taken

structure Good (stream : Bytes) (f : Flow) : Prop where
  queued : f.queued <+: stream
  taken : f.taken ++ f.queue.flatten = f.queued
  wrote : f.Wrote
  ack : f.clientAck = f.seqAfter f.taken.length
  out : ∀ seg ∈ f.out, f.Backed seg.ack

variable {f : Flow}

theorem Good.taken_isPrefix (h : f.Good stream)
    : f.taken <+: f.queued := by
  rw [← h.taken]
  apply prefix_append

theorem Good.written_isPrefix (h : f.Good stream)
    : f.written <+: stream := by
  have hwrote : f.written <+: f.taken := by
    have := h.wrote
    unfold Wrote at this
    split at this
    . rw [← this]
      apply prefix_append
    . exact this
    . exact this
    . exact this ▸ prefix_rfl
  exact (hwrote.trans h.taken_isPrefix).trans h.queued

theorem Good.backed_clientAck (h : f.Good stream)
    : f.Backed f.clientAck := by
  refine ⟨f.taken.length, ?_, h.ack⟩
  have := h.taken_isPrefix.length_le
  omega

theorem seqAfter_add (f : Flow)
    : f.seqAfter (m + n) = f.seqAfter m + UInt32.ofNat n := by
  unfold seqAfter
  rw [UInt32.ofNat_add, ← UInt32.add_assoc]

theorem Good.sendTcp (flags : Nat) (payload : Bytes) (h : f.Good stream)
    : (f.sendTcp flags payload).Good stream := by
  refine ⟨h.queued, h.taken, h.wrote, h.ack, ?_⟩
  intro seg hseg
  simp only [Flow.sendTcp, mem_append, mem_singleton] at hseg
  cases hseg with
  | inl hseg => exact h.out seg hseg
  | inr hseg =>
    rw [hseg]
    exact h.backed_clientAck

theorem good_recv {queue : List Bytes} (h : f.Good stream) (hqueue : f.queue = payload :: queue)
    (hwrote : f.written = f.taken)
    : (f.recv payload queue).Good stream := by
  have htaken := h.taken
  rw [hqueue, flatten_cons, ← append_assoc] at htaken
  refine ⟨h.queued, htaken, ?_, ?_, h.out⟩
  . simp only [Wrote, recv]
    rw [hwrote]
  . simp only [recv, length_append]
    rw [h.ack, ← seqAfter_add]
    rfl

section

variable (h : f.Good stream)
include h

theorem good_wrote (hwrote : f.written ++ rest = f.taken)
    : (f.wrote rest n).Good stream := by
  refine ⟨h.queued, h.taken, ?_, h.ack, h.out⟩
  unfold Wrote Flow.wrote
  cases Nat.lt_or_ge n rest.length with
  | inl hlt =>
    rw [if_neg (by omega)]
    dsimp only
    rw [append_assoc, take_append_drop]
    exact hwrote
  | inr hge =>
    rw [if_pos hge]
    rw [take_of_length_le hge]
    exact hwrote

theorem Good.stop (hwrote : f.written <+: f.taken)
    (task : Task) (htask : task = .resetting ∨ task = .ended)
    : { f with task := task }.Good stream := by
  refine ⟨h.queued, h.taken, ?_, h.ack, h.out⟩
  rcases htask with rfl | rfl
  . exact hwrote
  . exact hwrote

theorem good_step
    : (f.step e).Good stream := by
  have hwrote := h.wrote
  unfold Wrote at hwrote
  unfold step
  split
  next htask =>
    rw [htask] at hwrote
    exact ⟨h.queued, h.taken, hwrote, h.ack, h.out⟩
  next htask =>
    rw [htask] at hwrote
    exact h.stop (hwrote ▸ prefix_rfl) _ (.inl rfl)
  next htask =>
    rw [htask] at hwrote
    split
    next payload queue hqueue => exact good_recv h hqueue hwrote
    next => exact h
  next htask =>
    rw [htask] at hwrote
    have hsent := (h.sendTcp (tcpFin ||| tcpAck) []).stop (hwrote ▸ prefix_rfl) _ (.inr rfl)
    exact ⟨hsent.queued, hsent.taken, hsent.wrote, hsent.ack, hsent.out⟩
  next htask =>
    rw [htask] at hwrote
    exact ⟨h.queued, h.taken, hwrote, h.ack, h.out⟩
  next htask =>
    rw [htask] at hwrote
    exact h.stop (hwrote ▸ prefix_rfl) _ (.inl rfl)
  next htask =>
    rw [htask] at hwrote
    exact h.stop (hwrote ▸ prefix_rfl) _ (.inr rfl)
  next rest n htask =>
    rw [htask] at hwrote
    exact good_wrote h hwrote
  next rest htask =>
    rw [htask] at hwrote
    exact h.stop (hwrote ▸ prefix_append _ _) _ (.inl rfl)
  next payload htask =>
    rw [htask] at hwrote
    have hsent := h.sendTcp (tcpPsh ||| tcpAck) payload
    exact ⟨hsent.queued, hsent.taken, hwrote, hsent.ack, hsent.out⟩
  next htask =>
    rw [htask] at hwrote
    exact (h.sendTcp (tcpRst ||| tcpAck) []).stop hwrote _ (.inr rfl)
  next => exact h

theorem good_finish
    : { f.sendControl (f.seqAfter f.queued.length + 1) flags with finished := true }.Good
        stream := by
  refine ⟨h.queued, h.taken, h.wrote, h.ack, ?_⟩
  intro seg hseg
  simp only [sendControl, mem_append, mem_singleton] at hseg
  cases hseg with
  | inl hseg =>
    rcases h.out seg hseg with ⟨n, hn, hack⟩
    refine ⟨n, ?_, hack⟩
    simp only [sendControl, Bool.toNat_true]
    have := f.finished.toNat_le
    omega
  | inr hseg =>
    rw [hseg]
    refine ⟨f.queued.length + 1, Nat.le_refl _, ?_⟩
    exact f.seqAfter_add.symm

theorem good_deliver (hpayload : payload <+: stream.drop f.queued.length)
    : ((f.sendControl (f.seqAfter f.queued.length + UInt32.ofNat payload.length) flags).push
        payload).Good stream := by
  refine ⟨?_, ?_, h.wrote, h.ack, ?_⟩
  . rcases h.queued with ⟨rest, hrest⟩
    rw [← hrest, drop_left] at hpayload
    rw [← hrest]
    exact (prefix_append_right_inj f.queued).mpr hpayload
  . simp only [push, sendControl, flatten_append, flatten_singleton]
    rw [← append_assoc, h.taken]
  . intro seg hseg
    simp only [push, sendControl, mem_append, mem_singleton] at hseg
    cases hseg with
    | inl hseg =>
      rcases h.out seg hseg with ⟨n, hn, hack⟩
      refine ⟨n, ?_, hack⟩
      simp only [push, sendControl, length_append]
      omega
    | inr hseg =>
      rw [hseg]
      refine ⟨f.queued.length + payload.length, ?_, ?_⟩
      . simp only [push, sendControl, length_append]
        omega
      . exact f.seqAfter_add.symm

end

def acked (tcp : TcpHeader) (scale : Nat) (f : Flow) : Flow :=
  if tcp.has tcpAck then
    { f with
      clientAckSeen := tcp.ack
      clientWindowSeen := max (scaledWindow tcp.window scale) 1 }
  else
    f

def segment (tcp : TcpHeader) (scale : Nat) (payload : Bytes) (f : Flow) : Flow :=
  if tcp.has tcpFin then
    { (f.acked tcp scale).sendControl (tcp.seq + 1) tcpAck with finished := true }
  else if payload = [] then
    f.acked tcp scale
  else
    let f := (f.acked tcp scale).sendControl (tcp.seq + UInt32.ofNat payload.length) tcpAck
    if f.isOpen then f.push payload else f

def opened (key : Key) (tcp : TcpHeader) : Flow where
  client := key.fst
  remote := key.snd
  clientIsn := tcp.seq
  serverSeq := (serverIsn ^^^ UInt32.ofNat key.fst.port) + 1
  clientAckSeen := (serverIsn ^^^ UInt32.ofNat key.fst.port) + 1
  clientWindowSeen := max (scaledWindow tcp.window (tcp.windowScale.getD 0)) 1
  clientAck := tcp.seq + 1
  queue := []
  task := .connecting
  queued := []
  taken := []
  written := []
  finished := false
  out := [⟨serverIsn ^^^ UInt32.ofNat key.fst.port, tcp.seq + 1, tcpSyn ||| tcpAck,
    [1, 3, 3, tcpWindowScale], []⟩]

theorem Good.acked (tcp : TcpHeader) (scale : Nat) (h : f.Good stream)
    : (f.acked tcp scale).Good stream := by
  unfold Flow.acked
  split
  next => exact ⟨h.queued, h.taken, h.wrote, h.ack, h.out⟩
  next => exact h

theorem good_segment (h : f.Good stream)
    (hfin : tcp.has tcpFin = true → tcp.seq = f.seqAfter f.queued.length)
    (hturn : tcp.has tcpFin = false → payload ≠ [] →
      tcp.seq = f.seqAfter f.queued.length ∧ f.isOpen ∧ payload <+: stream.drop f.queued.length)
    : (f.segment tcp scale payload).Good stream := by
  have hacked := h.acked tcp scale
  have hsame : (f.acked tcp scale).seqAfter (f.acked tcp scale).queued.length
      = f.seqAfter f.queued.length ∧ (f.acked tcp scale).queued = f.queued
      ∧ (f.acked tcp scale).isOpen = f.isOpen := by
    unfold Flow.acked
    split <;> exact ⟨rfl, rfl, rfl⟩
  unfold segment
  split
  next hf =>
    rw [hfin hf, ← hsame.left]
    exact good_finish hacked
  next hf =>
    split
    next => exact hacked
    next hne =>
      rcases hturn (by simpa using hf) hne with ⟨hseq, hopen, hpayload⟩
      have hstill : ((f.acked tcp scale).sendControl (tcp.seq + UInt32.ofNat payload.length)
          tcpAck).isOpen = true := hsame.right.right.trans hopen
      simp only [hstill]
      rw [hseq, ← hsame.left]
      rw [← hsame.right.left] at hpayload
      exact good_deliver hacked hpayload

theorem good_opened
    : (opened key tcp).Good stream := by
  refine ⟨ nil_prefix, rfl, rfl, ?_, ?_⟩
  . simp [seqAfter, opened]
  . intro seg hseg
    rw [opened, mem_singleton] at hseg
    refine ⟨0, Nat.zero_le _, ?_⟩
    rw [hseg]
    simp [seqAfter, opened]

end Flow

namespace TcpBridgeTable

variable {b : TcpBridgeTable}

def scaleOf (b : TcpBridgeTable) (raw : Bytes) : Nat :=
  match parseIpPacket raw with
  | some packet => ((b.get packet.key).map (·.clientWindowScale)).getD 0
  | none => 0

def opening (b : TcpBridgeTable) (raw : Bytes) : Option (Key × TcpHeader) := do
  let packet ← parseIpPacket raw
  guard (packet.protocol = .tcp)
  let tcp ← TcpHeader.fromPacket packet raw
  guard (!tcp.has tcpRst && (b.get packet.key).isNone && tcp.has tcpSyn)
  return (packet.key, tcp)

inductive Comes (b : TcpBridgeTable) : Event → Nat → Flow → Prop where
  | kept {e : Event} {i : Nat} {f : Flow} (h : b.flows i = some f)
      (hother : ∀ raw now a, e = .packet raw now → b.arrival raw = some a → a.id ≠ i)
    : Comes b e i f
  | opened {raw : Bytes} {now : Nat} {key : Key} {tcp : TcpHeader}
      (h : b.opening raw = some (key, tcp))
      (hcreated : b.created < (b.step (.packet raw now)).created)
    : Comes b (.packet raw now) b.created (.opened key tcp)
  | segment {raw : Bytes} {now : Nat} {a : Arrival} (h : b.arrival raw = some a)
    : Comes b (.packet raw now) a.id (a.flow.segment a.tcp (b.scaleOf raw) a.payload)
  | stepped {i : Nat} {e : FlowEvent} {f : Flow} (h : b.flows i = some f)
    : Comes b (.flow i e) i (f.step e)

theorem flows_makeRoom (b : TcpBridgeTable) (now : Nat)
    : (b.makeRoom now).flows = b.flows ∧ (b.makeRoom now).created = b.created := by
  unfold makeRoom evictOldest
  dsimp only
  split
  . split <;> exact ⟨rfl, rfl⟩
  . exact ⟨rfl, rfl⟩

theorem flows_openFlow (h : b.openFlow key tcp now = .ok b')
    : b'.flows = b.flows.insert b.created (.opened key tcp) ∧ b'.created = b.created + 1 := by
  unfold openFlow at h
  simp only [flows_makeRoom] at h
  split at h
  next => cases h
  next =>
    cases h
    exact ⟨rfl, rfl⟩

theorem flows_touch (key : Key) (entry : Entry) (tcp : TcpHeader) (now : Nat)
    : (b.touch key entry tcp now).flows
      = (b.setFlow entry.flow (·.acked tcp entry.clientWindowScale)).flows := by
  unfold touch Flow.acked
  split
  next => rfl
  funext i
  simp only [setFlow, setEntry]
  split
  next h => simp [h]
  next => rfl

theorem flows_deliver (key : Key) (entry : Entry) (tcp : TcpHeader) (payload : Bytes) (now : Nat)
    : (b.deliver key entry tcp payload now).flows
      = (b.setFlow entry.flow fun f =>
          let f := f.sendControl (tcp.seq + UInt32.ofNat payload.length) tcpAck
          if f.isOpen then f.push payload else f).flows := by
  funext i
  unfold deliver
  cases hflow : b.flows entry.flow with
  | none => simp [setFlow, setEntry, remove, hflow]
  | some f =>
    simp only [setFlow, setEntry, remove, hflow, if_true, Option.map_some, Option.any_some]
    split
    next => by_cases hi : i = entry.flow <;> simp [hi]
    next => by_cases hi : i = entry.flow <;> simp [hi]

theorem Comes.of_no_arrival (hf : b.flows i = some f) (h : b.arrival raw = none)
    : b.Comes (.packet raw now) i f := by
  apply Comes.kept hf
  intro raw' now' a he ha
  cases he
  rw [h] at ha
  cases ha

theorem comes_packet (hparse : parseIpPacket raw = some packet)
    (hforward : b.forward packet raw now = .ok b') (hf : b'.flows i = some f)
    : b.Comes (.packet raw now) i f := by
  have hstep : b.step (.packet raw now) = b' := by simp [step, hparse, hforward]
  unfold forward at hforward
  split at hforward
  next hproto =>
    cases hforward
    exact .of_no_arrival hf (by simp [arrival, hparse, hproto])
  next hproto =>
    split at hforward
    next => cases hforward
    next tcp htcp =>
      simp only at hforward
      split at hforward
      next hrst =>
        cases hforward
        exact .of_no_arrival hf (by simp [arrival, hparse, htcp, hrst])
      next hrst =>
        split at hforward
        next hget =>
          have hnone : b.arrival raw = none := by simp [arrival, hparse, hget]
          split at hforward
          next hsyn =>
            rcases flows_openFlow hforward with ⟨hflows, hcreated⟩
            rw [hflows] at hf
            simp only [Table.insert] at hf
            split at hf
            next hi =>
              cases hf
              rw [hi]
              apply Comes.opened
              . simp_all [opening]
              . rw [hstep]
                omega
            next => exact .of_no_arrival hf hnone
          next =>
            cases hforward
            exact .of_no_arrival hf hnone
        next entry hget =>
          have hflows : b'.flows = (b.setFlow entry.flow (·.segment tcp entry.clientWindowScale
              ((packet.payload raw).getD []))).flows := by
            unfold Flow.segment
            split at hforward
            next hfin =>
              cases hforward
              simp only [if_true, finish, remove, setFlow, flows_touch, Option.map_map]
              funext i
              split <;> rfl
            next hfin =>
              split at hforward
              next hpayload =>
                cases hforward
                simp [hfin, hpayload, flows_touch]
              next hpayload =>
                cases hforward
                simp [hfin, hpayload, flows_touch]
              next payload hne hpayload =>
                cases hforward
                simp only [flows_deliver, setFlow, flows_touch, hpayload, Option.getD_some, if_true,
                  Option.map_map]
                funext i
                split <;> rfl
          have harrival (f' : Flow) (hf' : b.flows entry.flow = some f') : b.arrival raw
              = some ⟨tcp, (packet.payload raw).getD [], entry.flow, f'⟩ := by
            simp_all [arrival]
          rw [hflows] at hf
          simp only [setFlow] at hf
          split at hf
          next hi =>
            rw [Option.map_eq_some_iff] at hf
            rcases hf with ⟨f', hf', rfl⟩
            have hscale : b.scaleOf raw = entry.clientWindowScale := by
              simp [scaleOf, hparse, hget]
            rw [hi, ← hscale]
            exact .segment (harrival f' hf')
          next hi =>
            apply Comes.kept hf
            intro raw' now' a he ha
            cases he
            cases hflow : b.flows entry.flow with
            | none => simp [arrival, hparse, hget, hflow] at ha
            | some f' =>
              rw [harrival f' hflow] at ha
              cases ha
              exact Ne.symm hi

theorem arrival_of_error (hparse : parseIpPacket raw = some packet)
    (hforward : b.forward packet raw now = .error error)
    : b.arrival raw = none := by
  unfold forward at hforward
  split at hforward
  next => cases hforward
  split at hforward
  next htcp => simp [arrival, hparse, htcp]
  next tcp htcp =>
    simp only at hforward
    split at hforward
    next => cases hforward
    split at hforward
    next hget => simp [arrival, hparse, hget]
    split at hforward
    next => cases hforward
    next => split at hforward <;> cases hforward

theorem comes_step (hf : (b.step e).flows i = some f) : b.Comes e i f := by
  cases e with
  | packet raw now =>
    cases hparse : parseIpPacket raw with
    | none =>
      simp only [step, hparse] at hf
      exact .of_no_arrival hf (by simp [arrival, hparse])
    | some packet =>
      cases hforward : b.forward packet raw now with
      | ok b' =>
        simp only [step, hparse, hforward] at hf
        exact comes_packet hparse hforward hf
      | error e =>
        simp only [step, hparse, hforward] at hf
        exact .of_no_arrival hf (arrival_of_error hparse hforward)
  | evict now => exact .kept hf (by simp)
  | flow j e =>
    simp only [step, setFlow] at hf
    split at hf
    next hi =>
      rw [Option.map_eq_some_iff] at hf
      rcases hf with ⟨f', hf', rfl⟩
      rw [hi]
      exact .stepped hf'
    next => exact .kept hf (by simp)

theorem flows_of_arrival (h : b.arrival raw = some a)
    : b.flows a.id = some a.flow := by
  simp only [arrival, bind, Option.bind_eq_some_iff] at h
  rcases h with ⟨_, _, _, _, _, _, _, _, _, _, _, hflow, heq⟩
  cases heq
  exact hflow

def Good (streams : Nat → Bytes) (b : TcpBridgeTable) : Prop :=
  ∀ i f, b.flows i = some f → f.Good (streams i)

/--
If the packet brings something for a flow, it is the next piece of the client's bytes and somebody
is listening, and if it brings the end, it comes after the last piece.
-/
def inOrder (streams : Nat → Bytes) (b : TcpBridgeTable) (e : Event) : Bool :=
  match e with
  | .packet raw _ =>
    match b.arrival raw with
    | some a =>
      let inTurn : Bool := a.tcp.seq = a.flow.seqAfter a.flow.queued.length
      if a.tcp.has tcpFin then
        inTurn && a.payload.isEmpty
      else
        a.payload.isEmpty
          || (inTurn && a.payload.isPrefixOf ((streams a.id).drop a.flow.queued.length)
            && a.flow.isOpen)
    | none => true
  | _ => true

theorem good_step (h : b.Good streams) (horder : inOrder streams b e)
    : (b.step e).Good streams := by
  intro i f hf
  cases comes_step hf with
  | kept hold => exact h i f hold
  | opened => exact Flow.good_opened
  | stepped hold => exact Flow.good_step (h i _ hold)
  | segment ha =>
    apply Flow.good_segment (h _ _ (flows_of_arrival ha))
    . intro hfin
      simp only [inOrder, ha, hfin, if_true, Bool.and_eq_true, decide_eq_true_eq] at horder
      exact horder.left
    . intro hfin hne
      simp only [inOrder, ha, hfin, Bool.false_eq_true, if_false, Bool.or_eq_true,
        List.isEmpty_iff, hne, false_or, Bool.and_eq_true, decide_eq_true_eq,
        isPrefixOf_iff_prefix] at horder
      exact ⟨horder.left.left, horder.right, horder.left.right⟩

end TcpBridgeTable

theorem tcp_bridge_delivers (idleTimeout maxEntries : Nat) (streams : Nat → Bytes)
    (b : TcpBridgeTable)
    (h : Reach TcpBridgeTable.step
      (fun b e => b.enabled e ∧ TcpBridgeTable.inOrder streams b e)
      (TcpBridgeTable.new idleTimeout maxEntries) b)
    (i : Nat) (f : Flow) (hf : b.flows i = some f)
    : f.written <+: streams i
        ∧ ∀ seg ∈ f.out, ∃ n ≤ f.queued.length + f.finished.toNat,
            seg.ack = f.clientIsn + 1 + UInt32.ofNat n := by
  have hgood := Reach.invariant (TcpBridgeTable.Good streams) _ b
    (fun _ _ hf => by cases hf)
    (fun t e ht he => TcpBridgeTable.good_step ht he.right) h
  exact ⟨(hgood i f hf).written_isPrefix, (hgood i f hf).out⟩

def ipv4Segment (seq flags : UInt8) (payload : Bytes) : Bytes :=
  [0x45, 0, 0, UInt8.ofNat (40 + payload.length), 0, 0, 0, 0, 64, 6, 0, 0, 10, 0, 0, 2,
    93, 184, 216, 34]
    ++ [0xc3, 0x50, 1, 0xbb, 0, 0, 0, seq, 0, 0, 0, 0, 0x50, flags, 0xff, 0xff, 0, 0, 0, 0]
    ++ payload

def twoSegments : List Event :=
  [.packet (ipv4Segment 0 0x02 []) 0, .packet (ipv4Segment 1 0x10 [1, 2]) 1, .flow 0 .connected,
    .flow 0 .recv, .packet (ipv4Segment 3 0x10 [3]) 2, .flow 0 (.wrote 2), .flow 0 .recv,
    .flow 0 (.wrote 1), .packet (ipv4Segment 4 0x11 []) 3]

theorem tcp_bridge_delivers_two_segments
    : let b := twoSegments.foldl TcpBridgeTable.step (.new 60 16)
      (b.flows 0).map (·.written) = some [1, 2, 3]
        ∧ ∀ f, b.flows 0 = some f → f.written <+: [1, 2, 3] := by
  refine ⟨by decide +kernel, ?_⟩
  intro f hf
  apply (tcp_bridge_delivers 60 16 (fun _ => [1, 2, 3]) _ _ 0 f hf).left
  apply Reach.foldl _ _ .start
  decide +kernel

def retransmitted : List Event :=
  [.packet (ipv4Segment 0 0x02 []) 0, .flow 0 .connected, .packet (ipv4Segment 1 0x10 [1, 2]) 1,
    .packet (ipv4Segment 1 0x10 [1, 2]) 2, .flow 0 .recv, .flow 0 (.wrote 2), .flow 0 .recv,
    .flow 0 (.wrote 2)]

theorem tcp_bridge_repeats_segment
    : Allowed TcpBridgeTable.step (fun b e => b.enabled e) (.new 60 16) retransmitted
        ∧ ((retransmitted.foldl TcpBridgeTable.step (.new 60 16)).flows 0).map (·.written)
          = some [1, 2, 1, 2] := by
  decide +kernel

open Machine

section

variable (first : UInt32) (out : List Segment)

def sent : Bytes :=
  out.flatMap (·.payload)

def nextSeq : UInt32 :=
  first + UInt32.ofNat (sent out).length

def Contiguous : Prop :=
  ∀ pre seg post, out = pre ++ seg :: post → seg.payload ≠ [] → seg.seq = nextSeq first pre

-- The number behind the last byte is that of the FIN.
def unacknowledged (ack : UInt32) : Nat :=
  if ack = nextSeq first out + 1 then 0 else (nextSeq first out - ack).toNat

theorem nextSeq_append (seg : Segment)
    : nextSeq first (out ++ [seg]) = nextSeq first out + UInt32.ofNat seg.payload.length := by
  simp [nextSeq, sent, UInt32.add_assoc]

end

section

theorem Contiguous.append (h : Contiguous first out)
    (hseg : seg.payload ≠ [] → seg.seq = nextSeq first out)
    : Contiguous first (out ++ [seg]) := by
  intro pre seg' post hout hne
  rcases List.eq_nil_or_concat post with rfl | ⟨post, last, rfl⟩
  . rcases List.append_inj' hout rfl with ⟨rfl, hlast⟩
    cases hlast
    exact hseg hne
  . rw [List.concat_eq_append, ← List.cons_append, ← List.append_assoc] at hout
    exact h pre seg' post (List.append_inj' hout rfl).left hne

theorem nextSeq_of_nil (hseg : seg.payload = [])
    : nextSeq first (out ++ [seg]) = nextSeq first out := by
  rw [nextSeq_append, hseg]
  simp

end

namespace Flow

def firstSeq (f : Flow) : UInt32 :=
  (serverIsn ^^^ UInt32.ofNat f.client.port) + 1

structure Bounded (positive : Bool) (window : Nat) (f : Flow) : Prop where
  bytes : unacknowledged f.firstSeq f.out f.clientAckSeen ≤ window
  seen : f.clientWindowSeen ≤ max window 1
  seq : f.task ≠ .ended → f.serverSeq = nextSeq f.firstSeq f.out
  waiting : ∀ payload, f.task = .waiting payload →
    payload.length ≠ 0 ∧ (positive = false → payload.length ≠ 1)
  window : positive = true → window ≠ 0
  contiguous : Contiguous f.firstSeq f.out

variable {window : Nat} {f : Flow}

section

variable (h : f.Bounded positive window)
include h

theorem Bounded.room (htask : f.task = .waiting payload)
    (hopen : f.windowIsOpen payload.length)
    : (f.serverSeq - f.clientAckSeen).toNat + payload.length ≤ window ∧ window ≠ 0 := by
  have hseen := h.seen
  have hpositive := h.window
  rcases h.waiting payload htask with ⟨hne, hone⟩
  have hroom : min ((f.serverSeq - f.clientAckSeen).toNat + payload.length) (2 ^ 32 - 1)
      ≤ min f.clientWindowSeen (4 * 1024 * 1024) := of_decide_eq_true hopen
  cases positive with
  | true =>
    specialize hpositive rfl
    omega
  | false =>
    specialize hone rfl
    omega

theorem Bounded.quiet {seg : Segment} (hseg : seg.payload = [])
    : { f with out := f.out ++ [seg] }.Bounded positive window := by
  refine ⟨?_, h.seen, fun htask => ?_, h.waiting, h.window, h.contiguous.append (absurd hseg)⟩
  . have hbytes := h.bytes
    unfold unacknowledged at hbytes ⊢
    rw [nextSeq_of_nil hseg]
    exact hbytes
  . rw [nextSeq_of_nil hseg]
    exact h.seq htask

theorem Bounded.move (hrunning : f.task ≠ .ended) {task : Task}
    (htask : ∀ payload, task = .waiting payload →
      payload.length ≠ 0 ∧ (positive = false → payload.length ≠ 1))
    : { f with task := task }.Bounded positive window :=
  ⟨h.bytes, h.seen, fun _ => h.seq hrunning, htask, h.window, h.contiguous⟩

theorem Bounded.ended {serverSeq : UInt32}
    : { f with serverSeq := serverSeq, task := .ended }.Bounded positive window :=
  ⟨h.bytes, h.seen, by simp, by simp, h.window, h.contiguous⟩

theorem Bounded.bookkeeping {queue : List Bytes} {queued : Bytes}
    {finished : Bool}
    : { f with queue := queue, queued := queued, finished := finished }.Bounded positive window :=
  ⟨h.bytes, h.seen, h.seq, h.waiting, h.window, h.contiguous⟩

theorem Bounded.send (htask : f.task = .waiting payload)
    (hopen : f.windowIsOpen payload.length)
    : { f.sendTcp (tcpPsh ||| tcpAck) payload with
        serverSeq := f.serverSeq + UInt32.ofNat payload.length
        task := .selecting }.Bounded positive window := by
  have hseq := h.seq (by simp [htask])
  have hroom := (h.room htask hopen).left
  have hnext := nextSeq_append f.firstSeq f.out
    ⟨f.serverSeq, f.clientAck, tcpPsh ||| tcpAck, [], payload⟩
  refine ⟨?_, h.seen, fun _ => ?_, by simp, h.window, h.contiguous.append fun _ => hseq⟩
  . apply Nat.le_trans _ hroom
    change unacknowledged f.firstSeq (f.out ++ [_]) f.clientAckSeen ≤ _
    unfold unacknowledged
    rw [hnext, ← hseq]
    split
    next => exact Nat.zero_le _
    next =>
      simp only [UInt32.toNat_sub, UInt32.toNat_add, UInt32.toNat_ofNat']
      omega
  . change f.serverSeq + UInt32.ofNat payload.length = nextSeq f.firstSeq (f.out ++ [_])
    rw [hnext, hseq]

theorem bounded_step (henabled : f.enabled attached e)
    (hread : ∀ bytes, e = .read bytes → positive = false → bytes.length ≠ 1)
    : (f.step e).Bounded positive window := by
  unfold enabled at henabled
  unfold step
  split
  next htask => exact h.move (by simp [htask]) (by simp)
  next htask => exact h.move (by simp [htask]) (by simp)
  next htask =>
    split
    next =>
      exact ⟨h.bytes, h.seen, fun _ => h.seq (by simp [htask]), by simp [recv], h.window,
        h.contiguous⟩
    next => exact h
  next => exact (h.quiet rfl).ended
  next bytes hne htask =>
    apply h.move (by simp [htask])
    intro payload heq
    cases heq
    exact ⟨by simpa using hne, hread _ rfl⟩
  next htask => exact h.move (by simp [htask]) (by simp)
  next htask => exact h.move (by simp [htask]) (by simp)
  next rest n htask =>
    refine ⟨h.bytes, h.seen, fun _ => h.seq (by simp [htask]), ?_, h.window, h.contiguous⟩
    unfold Flow.wrote
    split <;> simp
  next htask => exact h.move (by simp [htask]) (by simp)
  next payload htask =>
    rw [htask] at henabled
    exact h.send htask henabled
  next => exact (h.quiet rfl).ended
  next => exact h

theorem bounded_segment (hack : tcp.has tcpAck = true)
    (hbytes : unacknowledged f.firstSeq f.out tcp.ack ≤ scaledWindow tcp.window scale)
    (hwindow : positive = true → scaledWindow tcp.window scale ≠ 0)
    : (f.segment tcp scale payload).Bounded positive (scaledWindow tcp.window scale) := by
  have hacked : (f.acked tcp scale).Bounded positive (scaledWindow tcp.window scale) := by
    rw [acked, if_pos hack]
    exact ⟨hbytes, Nat.le_refl _, h.seq, h.waiting, hwindow, h.contiguous⟩
  have hquiet (ack : UInt32)
      : ((f.acked tcp scale).sendControl ack tcpAck).Bounded positive
        (scaledWindow tcp.window scale) := hacked.quiet rfl
  unfold segment
  split
  next => exact (hquiet _).bookkeeping
  split
  next => exact hacked
  dsimp only
  split
  next => exact (hquiet _).bookkeeping
  next => exact hquiet _

end

theorem bounded_opened (hscale : tcp.windowScale.getD 0 = 0)
    (hwindow : positive = true → tcp.window ≠ 0)
    : (opened key tcp).Bounded positive tcp.window := by
  have hnil : Contiguous (opened key tcp).firstSeq [] := by
    simp [Contiguous]
  have hout : Contiguous (opened key tcp).firstSeq (opened key tcp).out :=
    hnil.append (absurd rfl)
  refine ⟨?_, ?_, ?_, by simp [opened], hwindow, hout⟩
  . simp [unacknowledged, nextSeq, sent, firstSeq, opened]
  . simp [opened, hscale, scaledWindow]
  . simp [nextSeq, sent, firstSeq, opened]

end Flow

namespace TcpBridgeTable

theorem created_step (b : TcpBridgeTable) (e : Event) : b.created ≤ (b.step e).created := by
  cases e with
  | packet raw now =>
    unfold step forward openFlow touch finish deliver
    simp only [setFlow, setEntry, remove, flows_makeRoom]
    grind
  | evict now => exact Nat.le_refl _
  | flow i e => exact Nat.le_refl _

theorem arrival_of_opening {b : TcpBridgeTable} (h : b.opening raw = some x)
    : b.arrival raw = none := by
  simp only [opening, bind, Option.bind_eq_some_iff] at h
  rcases h with ⟨packet, hparse, _, _, tcp, htcp, _, hget, _⟩
  have hnone : b.get packet.key = none := by
    cases hentry : b.get packet.key with
    | none => rfl
    | some entry => simp [hentry] at hget
  simp [arrival, hparse, hnone]

end TcpBridgeTable

structure Observed where
  bridge : TcpBridgeTable
  window : Nat → Nat

namespace Observed

-- The window of a segment with a SYN is not scaled.
def advertised (o : Observed) (raw : Bytes) (tcp : TcpHeader) : Nat :=
  if tcp.has tcpSyn then tcp.window else scaledWindow tcp.window (o.bridge.scaleOf raw)

def windowAfter (o : Observed) (e : Event) (i : Nat) : Nat :=
  match e with
  | .packet raw _ =>
    match o.bridge.arrival raw with
    | some a => if i = a.id then o.advertised raw a.tcp else o.window i
    | none =>
      match o.bridge.opening raw with
      | some (_, tcp) => if i = o.bridge.created then tcp.window else o.window i
      | none => o.window i
  | _ => o.window i

def step (o : Observed) (e : Event) : Observed :=
  ⟨o.bridge.step e, o.windowAfter e⟩

/--
A SYN has no window scale. Another segment acknowledges something, is no SYN and covers with its
window what it does not acknowledge. A flow that sends is in the table, and either no window is zero
or no read returns a single byte.
-/
def courteous (positive : Bool) (o : Observed) (e : Event) : Bool :=
  match e with
  | .packet raw _ =>
    match o.bridge.arrival raw with
    | some a =>
      a.tcp.has tcpAck && !a.tcp.has tcpSyn
        && unacknowledged a.flow.firstSeq a.flow.out a.tcp.ack ≤ o.advertised raw a.tcp
        && (!positive || o.advertised raw a.tcp ≠ 0)
    | none =>
      match o.bridge.opening raw with
      | some (_, tcp) => tcp.windowScale.getD 0 = 0 && (!positive || tcp.window ≠ 0)
      | none => true
  | .flow i .windowOpened => o.bridge.isAttached i
  | .flow _ (.read bytes) => positive || bytes.length ≠ 1
  | _ => true

structure Controlled (positive : Bool) (o : Observed) : Prop where
  fresh : ∀ i f, o.bridge.flows i = some f → i < o.bridge.created
  bounded : ∀ i f, o.bridge.flows i = some f → f.Bounded positive (o.window i)

theorem controlled_step {positive : Bool} {o : Observed} (h : o.Controlled positive)
    (henabled : o.bridge.enabled e) (he : o.courteous positive e)
    : (o.step e).Controlled positive := by
  refine ⟨fun i f hf => ?_, fun i f hf => ?_⟩
  . have hle := o.bridge.created_step e
    cases TcpBridgeTable.comes_step hf with
    | kept hold => exact Nat.lt_of_lt_of_le (h.fresh i f hold) hle
    | opened _ hcreated => exact hcreated
    | segment ha =>
      exact Nat.lt_of_lt_of_le (h.fresh _ _ (TcpBridgeTable.flows_of_arrival ha)) hle
    | stepped hold => exact Nat.lt_of_lt_of_le (h.fresh i _ hold) hle
  . cases TcpBridgeTable.comes_step hf with
    | kept hold hother =>
      have hwindow : o.windowAfter e i = o.window i := by
        have hne := Nat.ne_of_lt (h.fresh i f hold)
        unfold windowAfter
        split
        next raw now =>
          split
          next a ha => exact if_neg (Ne.symm (hother raw now a rfl ha))
          split
          next => exact if_neg hne
          next => rfl
        next => rfl
      simp only [step, hwindow]
      exact h.bounded i f hold
    | opened hopening =>
      have ha := TcpBridgeTable.arrival_of_opening hopening
      simp only [courteous, ha, hopening, Bool.and_eq_true, decide_eq_true_eq] at he
      simp only [step, windowAfter, ha, hopening]
      apply Flow.bounded_opened he.left
      simpa [imp_iff_not_or] using he.right
    | @segment raw now a ha =>
      simp only [courteous, ha, Bool.and_eq_true, decide_eq_true_eq] at he
      rcases he with ⟨⟨⟨hack, hsyn⟩, hbytes⟩, hpositive⟩
      have hadvertised : o.advertised raw a.tcp
          = scaledWindow a.tcp.window (o.bridge.scaleOf raw) := if_neg (by simpa using hsyn)
      rw [hadvertised] at hbytes hpositive
      simp only [step, windowAfter, ha]
      rw [hadvertised]
      apply Flow.bounded_segment (h.bounded _ _ (TcpBridgeTable.flows_of_arrival ha)) hack hbytes
      simpa [imp_iff_not_or] using hpositive
    | stepped hold =>
      simp only [TcpBridgeTable.enabled, hold] at henabled
      apply Flow.bounded_step (h.bounded i _ hold) henabled
      intro bytes hread hpositive
      subst hread
      simpa [courteous, hpositive] using he

end Observed

theorem tcp_bridge_flow_control (idleTimeout maxEntries : Nat) (positive : Bool) (o : Observed)
    (h : Reach Observed.step (fun o e => o.bridge.enabled e ∧ o.courteous positive e)
      ⟨.new idleTimeout maxEntries, fun _ => 0⟩ o)
    (i : Nat) (f : Flow) (hf : o.bridge.flows i = some f)
    : unacknowledged f.firstSeq f.out f.clientAckSeen ≤ o.window i
        ∧ (o.bridge.enabled (.flow i .windowOpened) → o.window i ≠ 0)
        ∧ Contiguous f.firstSeq f.out := by
  have hcontrolled : o.Controlled positive := Reach.invariant _ _ o
    ⟨(fun _ _ hf => by cases hf), (fun _ _ hf => by cases hf)⟩
    (fun o e ho he => Observed.controlled_step ho he.left he.right) h
  have hbounded := hcontrolled.bounded i f hf
  refine ⟨hbounded.bytes, fun henabled => ?_, hbounded.contiguous⟩
  simp only [TcpBridgeTable.enabled, hf, Option.any_some, Flow.enabled] at henabled
  cases htask : f.task with
  | waiting payload =>
    rw [htask] at henabled
    exact (hbounded.room htask henabled).right
  | _ => simp [htask] at henabled

def windowSegment (seq flags window : UInt8) (options : Bytes) : Bytes :=
  [0x45, 0, 0, UInt8.ofNat (40 + options.length), 0, 0, 0, 0, 64, 6, 0, 0, 10, 0, 0, 2,
    93, 184, 216, 34]
    ++ [0xc3, 0x50, 1, 0xbb, 0, 0, 0, seq, 0x42, 0x57, 0xc3, 0x52,
      UInt8.ofNat (0x50 + 4 * options.length), flags, 0, window, 0, 0, 0, 0]
    ++ options

def unused : Observed :=
  ⟨.new 60 16, fun _ => 0⟩

def threeBytes : List Event :=
  [.packet (windowSegment 0 0x02 100 []) 0, .packet (windowSegment 1 0x10 3 []) 1,
    .flow 0 .connected, .flow 0 (.read [1, 2, 3]), .flow 0 .windowOpened]

theorem tcp_bridge_flow_control_three_bytes
    : let o := threeBytes.foldl Observed.step unused
      (o.bridge.flows 0).map (sent ·.out) = some [1, 2, 3]
        ∧ ∀ f, o.bridge.flows 0 = some f →
          unacknowledged f.firstSeq f.out f.clientAckSeen ≤ o.window 0 := by
  refine ⟨by decide +kernel, ?_⟩
  intro f hf
  apply (tcp_bridge_flow_control 60 16 false _ _ 0 f hf).left
  apply Reach.foldl _ _ .start
  decide +kernel

-- The client advertises a window of one byte in its SYN, together with a scale for later windows.
def scaledSyn : List Event :=
  [.packet (windowSegment 0 0x02 1 [3, 3, 7, 0]) 0, .flow 0 .connected,
    .flow 0 (.read (List.replicate 100 0)), .flow 0 .windowOpened]

def closedWindow : List Event :=
  [.packet (windowSegment 0 0x02 1 []) 0, .flow 0 .connected,
    .packet (windowSegment 1 0x10 0 []) 1, .flow 0 (.read [1]), .flow 0 .windowOpened]

theorem tcp_bridge_exceeds_window
    : Allowed Observed.step (fun o e => o.bridge.enabled e) unused scaledSyn
        ∧ (scaledSyn.foldl Observed.step unused).window 0 = 1
        ∧ ((scaledSyn.foldl Observed.step unused).bridge.flows 0).map
            (fun f => unacknowledged f.firstSeq f.out f.clientAckSeen) = some 100
        ∧ Allowed Observed.step (fun o e => o.bridge.enabled e) unused closedWindow
        ∧ (closedWindow.foldl Observed.step unused).window 0 = 0
        ∧ ((closedWindow.foldl Observed.step unused).bridge.flows 0).map (sent ·.out)
          = some [1] := by
  decide +kernel

end Blackwire.Tun
