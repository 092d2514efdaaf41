import Blackwire.Protocol.Vless.Mux
import Blackwire.Lib.Machine
import Blackwire.Common.BoxedStream

/-!
This module contains the relays that carry the datagrams of one client for Trojan, for SOCKS5 and
for VLESS, and proves when the address in a frame is the one that the payload came from. All three
send a datagram, wait for one datagram on the socket that they sent it from, and go on.
-/

namespace Blackwire
namespace Udp

open Bytes

structure SocketAddr where
  ip : IpAddr
  port : Nat
deriving DecidableEq

def SocketAddr.isIpv6 (a : SocketAddr) : Bool :=
  match a.ip with
  | .v4 _ => false
  | .v6 _ => true

def SocketAddr.address (a : SocketAddr) : Address :=
  match a.ip with
  | .v4 ip => .ipv4 ip a.port
  | .v6 ip => .ipv6 ip a.port

inductive Lookup where
  | module (answer : Except ProxyError (List IpAddr))
  | host (answer : Except String (List IpAddr))
deriving DecidableEq

def Lookup.resolve (choose : List IpAddr → Option IpAddr) (name : String)
    : Lookup → Except ProxyError IpAddr
  | module (.error e) => .error e
  | module (.ok ips) =>
    match choose ips with
    | none => .error (.dnsResolutionFailed (name ++ ": no records"))
    | some ip => .ok ip
  | host (.error e) => .error (.dnsResolutionFailed (name ++ ": " ++ e))
  | host (.ok ips) =>
    match choose ips with
    | none => .error (.dnsResolutionFailed name)
    | some ip => .ok ip

def resolveUdpDest (choose : List IpAddr → Option IpAddr) (lookup : Lookup)
    : Address → Except ProxyError SocketAddr
  | .ipv4 ip port => .ok ⟨.v4 ip, port⟩
  | .ipv6 ip port => .ok ⟨.v6 ip, port⟩
  | .domain name port => (lookup.resolve choose name).map (⟨·, port⟩)

def preferIpv4 (ips : List IpAddr) : Option IpAddr :=
  (ips.find? fun ip => !SocketAddr.isIpv6 ⟨ip, 0⟩).or ips.head?

inductive Socket where
  | v4
  | v6
deriving DecidableEq

structure Datagram where
  source : SocketAddr
  data : Bytes

inductive ClientStep (σ : Type) where
  | idle (client : σ)
  | request (client : σ) (peer : Option SocketAddr) (dest : Address) (payload : Bytes)
  | ended (client : σ) (result : Except ProxyError Unit)

structure Relay (σ ι : Type) where
  label : String
  input : σ → ι → ClientStep σ
  resume : σ → ClientStep σ
  choose : List IpAddr → Option IpAddr
  socketFor : SocketAddr → Socket
  encode : Address → Bytes → Except ProxyError Bytes
  strict : Bool
  strictRecv : Bool

structure Outcome where
  lookup : Lookup
  sent : Except String Unit
  written : Except ProxyError Unit

inductive RelayEvent (ι : Type) where
  | input (i : ι) (o : Outcome)
  | arrives (socket : Socket) (d : Datagram)
  | receives (o : Outcome)
  | receiveFails (error : String) (o : Outcome)
  | elapsed (o : Outcome)

structure Waiting where
  peer : Option SocketAddr
  dest : Address
  socket : Socket

-- No relay keeps the source of a payload. It is here for the statements.
structure Reply where
  peer : Option SocketAddr
  source : SocketAddr
  payload : Bytes
  frame : Bytes
deriving DecidableEq

structure RelayState (σ : Type) where
  client : σ
  waiting : Option Waiting := none
  queue : Socket → List Datagram := fun _ => []
  sent : List (SocketAddr × Bytes) := []
  replies : List Reply := []
  ended : Option (Except ProxyError Unit) := none

def RelayState.new {σ : Type} (client : σ) : RelayState σ :=
  { client }

namespace Relay

variable {σ ι : Type}

variable (r : Relay σ ι) (s : RelayState σ)

def fails (e : ProxyError) : RelayState σ :=
  if r.strict then
    { s with waiting := none, ended := some (.error e) }
  else
    { s with waiting := none }

def request (peer : Option SocketAddr) (dest : Address)
    (payload : Bytes) (o : Outcome) : RelayState σ :=
  match resolveUdpDest r.choose o.lookup dest with
  | .error e => r.fails s e
  | .ok upstream =>
    match o.sent with
    | .error e => r.fails s (.transport (r.label ++ " send: " ++ e))
    | .ok _ =>
      { s with
        waiting := some ⟨peer, dest, r.socketFor upstream⟩
        sent := s.sent ++ [(upstream, payload)] }

def proceed (o : Outcome) : ClientStep σ → RelayState σ
  | .idle client => { s with client, waiting := none }
  | .request client peer dest payload => r.request { s with client } peer dest payload o
  | .ended client result => { s with client, waiting := none, ended := some result }

def reply (w : Waiting) (d : Datagram) (o : Outcome) : RelayState σ :=
  if d.data.isEmpty then
    r.proceed s o (r.resume s.client)
  else
    match r.encode w.dest d.data with
    | .error e => r.fails s e
    | .ok frame =>
      match o.written with
      | .error e => r.fails s e
      | .ok _ =>
        r.proceed { s with replies := s.replies ++ [⟨w.peer, d.source, d.data, frame⟩] } o
          (r.resume s.client)

def receive (w : Waiting) (o : Outcome) : RelayState σ :=
  match s.queue w.socket with
  | [] => s
  | d :: rest =>
    r.reply { s with queue := fun i => if i = w.socket then rest else s.queue i } w d o

-- The timer is asked behind the socket, so the time is not over as long as there is a datagram.
def elapse (w : Waiting) (o : Outcome) : RelayState σ :=
  if (s.queue w.socket).isEmpty then r.proceed s o (r.resume s.client) else s

def receiveFailed (error : String) (o : Outcome) : RelayState σ :=
  if r.strictRecv then
    { s with waiting := none, ended := some (.error (.transport (r.label ++ " recv: " ++ error))) }
  else
    r.proceed s o (r.resume s.client)

def wake : RelayEvent ι → RelayState σ
  | .arrives socket d =>
    { s with queue := fun i => if i = socket then s.queue i ++ [d] else s.queue i }
  | .input i o =>
    match s.waiting with
    | none => r.proceed s o (r.input s.client i)
    | some _ => s
  | .receives o =>
    match s.waiting with
    | none => s
    | some w => r.receive s w o
  | .receiveFails error o =>
    match s.waiting with
    | none => s
    | some _ => r.receiveFailed s error o
  | .elapsed o =>
    match s.waiting with
    | none => s
    | some w => r.elapse s w o

def step (e : RelayEvent ι) : RelayState σ :=
  if s.ended.isSome then s else r.wake s e

end Relay

end Udp

namespace Trojan

open Bytes Udp

def maxUdpPayloadLen : Nat := 8192

def payloadTooLong (len : Nat) : ProxyError :=
  .protocol ("Trojan UDP payload length " ++ toString len ++ " exceeds Xray max "
    ++ toString maxUdpPayloadLen)

def parseUdpDatagram (buf : Bytes) : Except ProxyError (Address × Bytes × Nat) :=
  match buf with
  | [] => .error (.protocol "Trojan UDP datagram too short")
  | atyp :: rest =>
    if buf.length < 4 then
      .error (.protocol "Trojan UDP datagram too short")
    else
      match decodeSocks5Address rest atyp "Trojan UDP" with
      | .error e => .error e
      | .ok (dest, consumed) =>
        let pos := 1 + consumed
        let len := ofBigEndian ((buf.drop pos).take 2)
        if pos + 4 > buf.length then
          .error (.protocol "Trojan UDP truncated length")
        else if len > maxUdpPayloadLen then
          .error (payloadTooLong len)
        else if (buf.drop (pos + 2)).take 2 ≠ ofString "\r\n" then
          .error (.protocol "Trojan UDP missing CRLF after length")
        else if pos + 4 + len > buf.length then
          .error (.protocol "Trojan UDP truncated payload")
        else
          .ok (dest, (buf.drop (pos + 4)).take len, pos + 4 + len)

def encodeUdpDatagramInto (dest : Address) (payload : Bytes) : Except ProxyError Bytes :=
  if payload.length > maxUdpPayloadLen then
    .error (payloadTooLong payload.length)
  else do
    let addr ← writeSocks5Address dest
    return addr ++ (toBigEndian 2 payload.length ++ (ofString "\r\n" ++ payload))

-- The inner loop up to the next payload that is not empty. Every turn of it takes bytes away.
def nextDatagram : Nat → Bytes → ClientStep Bytes
  | 0, acc => .idle acc
  | fuel + 1, acc =>
    match parseUdpDatagram acc with
    | .ok (dest, payload, consumed) =>
      if payload.isEmpty then
        nextDatagram fuel (acc.drop consumed)
      else
        .request (acc.drop consumed) none dest payload
    | .error (.protocol _) =>
      if acc.length > 65507 then
        .ended acc (.error (.protocol "Trojan UDP datagram buffer overflow"))
      else
        .idle acc
    | .error e => .ended acc (.error e)

def resume (acc : Bytes) : ClientStep Bytes :=
  nextDatagram (acc.length + 1) acc

def readClient (acc : Bytes) : Except String Bytes → ClientStep Bytes
  | .error e => .ended acc (.error (.transport e))
  | .ok [] => .ended acc (.ok ())
  | .ok bytes => resume (acc ++ bytes)

def relayTrojanUdp : Relay Bytes (Except String Bytes) where
  label := "Trojan UDP"
  input := readClient
  resume := resume
  choose := List.head?
  socketFor := fun _ => .v4
  encode := encodeUdpDatagramInto
  strict := true
  strictRecv := true

end Trojan

namespace Socks5

open Bytes Udp

def socksUdpHeader : Nat := 3

-- The relay passes on seven bytes or more, so the byte behind the header is always there.
def parseUdpDatagram (buf : Bytes) : Except ProxyError (Address × Bytes) :=
  match buf with
  | rsv :: rsv' :: frag :: atyp :: rest =>
    if rsv ≠ 0 ∨ rsv' ≠ 0 then
      .error (.protocol "SOCKS5 UDP RSV must be zero")
    else if frag ≠ 0 then
      .error (.protocol ("SOCKS5 UDP fragment " ++ hex frag.toNat ++ " not supported"))
    else
      match decodeSocks5Address rest atyp "SOCKS5 UDP" with
      | .error e => .error e
      | .ok (dest, consumed) =>
        if 4 + consumed > buf.length then
          .error (.protocol "SOCKS5 UDP truncated payload")
        else
          .ok (dest, rest.drop consumed)
  | _ => .error (.protocol "SOCKS5 UDP datagram too short")

def encodeUdpDatagramInto (dest : Address) (payload : Bytes) : Except ProxyError Bytes := do
  let addr ← writeSocks5Address dest
  return [0, 0, 0] ++ (addr ++ payload)

inductive Client where
  | datagram (peer : SocketAddr) (bytes : Bytes)
  | failed (error : String)
  | control (read : Except String Nat)

def select (clientIp : IpAddr) : Client → ClientStep IpAddr
  | .failed e => .ended clientIp (.error (.transport e))
  | .control (.ok 0) => .ended clientIp (.ok ())
  | .control (.error _) => .ended clientIp (.ok ())
  | .control (.ok _) => .idle clientIp
  | .datagram peer bytes =>
    if peer.ip ≠ clientIp then
      .idle clientIp
    else if bytes.length < socksUdpHeader + 4 then
      .idle clientIp
    else
      match parseUdpDatagram bytes with
      | .error _ => .idle clientIp
      | .ok (dest, payload) =>
        if payload.isEmpty then .idle clientIp else .request clientIp (some peer) dest payload

def relaySocks5Udp : Relay IpAddr Client where
  label := "SOCKS5 UDP"
  input := select
  resume := .idle
  choose := List.head?
  socketFor := fun _ => .v4
  encode := encodeUdpDatagramInto
  strict := false
  strictRecv := false

end Socks5

namespace Vless

open Bytes Udp Reading

def readPacket (addrLen : Nat) : Reading (Address × Bytes) := do
  if addrLen = 0 ∨ addrLen > 512 then
    throw (.protocol ("invalid VLESS UDP address length " ++ toString addrLen))
  else
    let addr ← readExact addrLen
    let dest ← Reading.ofExcept (decodeAddressPort addr)
    let payload ← readUdpPayload
    return (dest, payload)

def readClient (client : Source UInt8 IoError) (_ : Unit) : ClientStep (Source UInt8 IoError) :=
  match readU16 client with
  | .error (.io .unexpectedEof) client => .ended client (.ok ())
  | .error e client => .ended client (.error (.transport e.text))
  | .ok addrLen client =>
    match readPacket addrLen client with
    | .error e client => .ended client (.error e)
    | .ok (dest, payload) client =>
      if payload.isEmpty then .idle client else .request client none dest payload

def udpFrame (dest : Address) (payload : Bytes) : Except ProxyError Bytes := do
  let addr ← encodeAddressPort dest
  if addr.length > 65535 then
    .error (.protocol "VLESS UDP address too long")
  else
    return toBigEndian 2 addr.length ++ (addr ++ payload)

def relayVlessUdp : Relay (Source UInt8 IoError) Unit where
  label := "VLESS UDP"
  input := readClient
  resume := .idle
  choose := preferIpv4
  socketFor := fun upstream => if upstream.isIpv6 then .v6 else .v4
  encode := udpFrame
  strict := true
  strictRecv := false

end Vless

namespace Udp

open Bytes Machine

variable {σ ι : Type}

namespace Relay

variable (r : Relay σ ι) (s : RelayState σ) (o : Outcome)

@[simp]
theorem replies_fails (e : ProxyError)
    : (r.fails s e).replies = s.replies := by
  unfold fails
  split <;> rfl

@[simp]
theorem replies_request (peer : Option SocketAddr) (dest : Address) (payload : Bytes) (o : Outcome)
    : (r.request s peer dest payload o).replies = s.replies := by
  unfold request
  split
  next => apply replies_fails
  split
  next => apply replies_fails
  next => rfl

@[simp]
theorem replies_proceed {c : ClientStep σ}
    : (r.proceed s o c).replies = s.replies := by
  cases c with
  | idle client => rfl
  | request client peer dest payload => apply replies_request
  | ended client result => rfl

@[simp]
theorem replies_receiveFailed {error : String} {o : Outcome}
    : (r.receiveFailed s error o).replies = s.replies := by
  unfold receiveFailed
  split
  next => rfl
  next => apply replies_proceed

@[simp]
theorem replies_elapse {w : Waiting} {o : Outcome}
    : (r.elapse s w o).replies = s.replies := by
  unfold elapse
  split
  next => apply replies_proceed
  next => rfl

inductive Replied (r : Relay σ ι) (w : Waiting) (d : Datagram) (old : List Reply)
    : List Reply → Prop where
  | nothing : Replied r w d old old
  | frame (frame : Bytes) (h : r.encode w.dest d.data = .ok frame)
      : Replied r w d old (old ++ [⟨w.peer, d.source, d.data, frame⟩])

theorem replied_reply (w : Waiting) (d : Datagram) (o : Outcome)
    : Replied r w d s.replies (r.reply s w d o).replies := by
  unfold reply
  split
  next =>
    rw [replies_proceed]
    exact .nothing
  next =>
    split
    next =>
      rw [replies_fails]
      exact .nothing
    next frame hframe =>
      split
      next =>
        rw [replies_fails]
        exact .nothing
      next =>
        rw [replies_proceed]
        exact .frame frame hframe

end Relay

def Labelled (r : Relay σ ι) (s : RelayState σ) : Prop :=
  ∀ reply ∈ s.replies, r.encode reply.source.address reply.payload = .ok reply.frame

instance (r : Relay σ ι) (s : RelayState σ) : Decidable (Labelled r s) :=
  inferInstanceAs (Decidable (∀ reply ∈ s.replies, _))

/--
When a relay takes a datagram from a socket, this datagram came from the address that the request it
waits for was made to. So the request has no domain name, and nothing older is left in the socket.
-/
def Prompt (s : RelayState σ) : RelayEvent ι → Prop
  | .receives _ =>
    ∀ w ∈ s.waiting, ∀ d ∈ (s.queue w.socket).head?, d.source.address = w.dest
  | _ => True

instance (s : RelayState σ) (e : RelayEvent ι) : Decidable (Prompt s e) :=
  match e with
  | .receives _ => inferInstanceAs (Decidable (∀ w ∈ s.waiting, _))
  | .input _ _ => inferInstanceAs (Decidable True)
  | .arrives _ _ => inferInstanceAs (Decidable True)
  | .receiveFails _ _ => inferInstanceAs (Decidable True)
  | .elapsed _ => inferInstanceAs (Decidable True)

theorem Labelled.of_replies {r : Relay σ ι} {s t : RelayState σ} (h : Labelled r s)
    (ht : t.replies = s.replies)
    : Labelled r t := by
  unfold Labelled
  rw [ht]
  exact h

theorem Labelled.receive {r : Relay σ ι} {s : RelayState σ} {w : Waiting} {o : Outcome}
    (h : Labelled r s) (hfirst : ∀ d ∈ (s.queue w.socket).head?, d.source.address = w.dest)
    : Labelled r (r.receive s w o) := by
  unfold Relay.receive
  split
  next => exact h
  next d rest hqueue =>
    have hsource : d.source.address = w.dest := by
      apply hfirst
      rw [hqueue]
      rfl
    have hreplied := r.replied_reply
      { s with queue := fun i => if i = w.socket then rest else s.queue i } w d o
    unfold Labelled
    generalize (r.reply _ w d o).replies = replies at hreplied
    cases hreplied with
    | nothing => exact h
    | frame frame hframe =>
      intro reply hreply
      rw [List.mem_append, List.mem_singleton] at hreply
      cases hreply with
      | inl hold => exact h reply hold
      | inr hnew =>
        rw [hnew, hsource]
        exact hframe

theorem Labelled.wake {r : Relay σ ι} {s : RelayState σ} {e : RelayEvent ι} (h : Labelled r s)
    (he : Prompt s e)
    : Labelled r (r.wake s e) := by
  unfold Relay.wake
  cases e with
  | arrives socket d => exact h
  | input i o =>
    dsimp only
    split
    next => exact h.of_replies (r.replies_proceed s o)
    next => exact h
  | receives o =>
    cases hw : s.waiting with
    | none => exact h
    | some w => exact h.receive (he w hw)
  | receiveFails error o =>
    dsimp only
    split
    next => exact h
    next => exact h.of_replies (r.replies_receiveFailed s)
  | elapsed o =>
    dsimp only
    split
    next => exact h
    next w _ => exact h.of_replies (r.replies_elapse s)

theorem Labelled.step {r : Relay σ ι} {s : RelayState σ} {e : RelayEvent ι} (h : Labelled r s)
    (he : Prompt s e)
    : Labelled r (r.step s e) := by
  unfold Relay.step
  split
  next => exact h
  next => exact h.wake he

theorem labelled_of_reach {r : Relay σ ι} {client : σ} {s : RelayState σ}
    (h : Reach r.step Prompt (.new client) s)
    : Labelled r s := by
  apply h.invariant (Labelled r)
  . intro reply hreply
    cases hreply
  . intro t e ht he
    exact ht.step he

open Machine Trojan Socks5 Vless

theorem udp_replies_labelled (clientIp : IpAddr) (source : Source UInt8 IoError)
    : (∀ s, Reach relayTrojanUdp.step Prompt (.new []) s → Labelled relayTrojanUdp s)
      ∧ (∀ s, Reach relaySocks5Udp.step Prompt (.new clientIp) s → Labelled relaySocks5Udp s)
      ∧ ∀ s, Reach relayVlessUdp.step Prompt (.new source) s → Labelled relayVlessUdp s := by
  refine ⟨?_, ?_, ?_⟩
  . intro s hs
    exact labelled_of_reach hs
  . intro s hs
    exact labelled_of_reach hs
  . intro s hs
    exact labelled_of_reach hs

def ones : SocketAddr := ⟨.v4 0x01010101, 53⟩

def trojanRequest (b : UInt8) : Bytes :=
  [1, b, b, b, b, 0, 53, 0, 1, 13, 10, 7]

def socksRequest (b : UInt8) : Client :=
  .datagram ⟨.v4 0x7f000001, 4000⟩ [0, 0, 0, 1, b, b, b, b, 0, 53, 7]

def vlessRequests : Source UInt8 IoError :=
  .ofSegments [[0, 7, 0, 53, 1, 1, 1, 1, 1], [7], [0, 7, 0, 53, 1, 8, 8, 8, 8], [7]]

def fine : Outcome := ⟨.host (.ok []), .ok (), .ok ()⟩

def promptReply (i : ι) : List (RelayEvent ι) :=
  [.input i fine, .arrives .v4 ⟨ones, [9]⟩, .receives fine]

theorem udp_replies_labelled_prompt
    : let trojan := (promptReply (.ok (trojanRequest 1))).foldl relayTrojanUdp.step (.new [])
      let socks := (promptReply (socksRequest 1)).foldl relaySocks5Udp.step
        (.new (.v4 0x7f000001))
      let vless := (promptReply ()).foldl relayVlessUdp.step (.new vlessRequests)
      (trojan.replies.length = 1 ∧ Labelled relayTrojanUdp trojan)
        ∧ (socks.replies.length = 1 ∧ Labelled relaySocks5Udp socks)
        ∧ vless.replies.length = 1 ∧ Labelled relayVlessUdp vless := by
  refine ⟨⟨by decide +kernel, ?_⟩, ⟨by decide +kernel, ?_⟩, by decide +kernel, ?_⟩
  . apply (udp_replies_labelled (.v4 0x7f000001) vlessRequests).left
    apply Reach.foldl
    . exact Reach.start
    . decide +kernel
  . apply (udp_replies_labelled (.v4 0x7f000001) vlessRequests).right.left
    apply Reach.foldl
    . exact Reach.start
    . decide +kernel
  . apply (udp_replies_labelled (.v4 0x7f000001) vlessRequests).right.right
    apply Reach.foldl
    . exact Reach.start
    . decide +kernel

-- The reply to the first request comes when the time for it is over.
def lateReply (i j : ι) : List (RelayEvent ι) :=
  [.input i fine, .elapsed fine, .arrives .v4 ⟨ones, [9]⟩, .input j fine, .receives fine]

theorem udp_late_reply_mislabelled
    : (∃ s, s = (lateReply (.ok (trojanRequest 1)) (.ok (trojanRequest 8))).foldl
            relayTrojanUdp.step (.new [])
          ∧ s.replies = [⟨none, ones, [9], [1, 8, 8, 8, 8, 0, 53, 0, 1, 13, 10, 9]⟩]
          ∧ ¬Labelled relayTrojanUdp s)
      ∧ (∃ s, s = (lateReply (socksRequest 1) (socksRequest 8)).foldl
            relaySocks5Udp.step (.new (.v4 0x7f000001))
          ∧ s.replies = [⟨some ⟨.v4 0x7f000001, 4000⟩, ones, [9],
              [0, 0, 0, 1, 8, 8, 8, 8, 0, 53, 9]⟩]
          ∧ ¬Labelled relaySocks5Udp s)
      ∧ ∃ s, s = (lateReply () ()).foldl relayVlessUdp.step (.new vlessRequests)
          ∧ s.replies = [⟨none, ones, [9], [0, 7, 0, 53, 1, 8, 8, 8, 8, 9]⟩]
          ∧ ¬Labelled relayVlessUdp s := by
  refine ⟨⟨_, rfl, ?_, ?_⟩, ⟨_, rfl, ?_, ?_⟩, _, rfl, ?_, ?_⟩
  all_goals decide +kernel

end Udp
end Blackwire
