import Blackwire.Lib.Bytes
import Blackwire.Lib.Loop
import Blackwire.Common.Address

/-!
This module contains the wire format of VLESS requests, of the addresses in them and of their addons
field, with its verification. The cursors of the parser for the addons are `usize` values: an
addition of the source that is not checked wraps around at `2 ^ 64`.
-/

namespace Blackwire.Vless

open Bytes

def readVarint (data : List UInt8) (cursor : Nat) : Option (UInt64 × Nat) :=
  go (data.drop cursor) cursor 0 0
where
  go (rest : List UInt8) (cursor shift : Nat) (result : UInt64) : Option (UInt64 × Nat) :=
    match rest with
    | [] => none
    | byte :: rest =>
      let result := result ||| ((byte &&& 0x7f).toUInt64 <<< UInt64.ofNat shift)
      if byte &&& 0x80 = 0 then
        some (result, cursor + 1)
      else if shift + 7 ≥ 64 then
        none
      else
        go rest (cursor + 1) (shift + 7) result

def fieldNumber (tag : UInt64) : UInt32 :=
  (tag >>> 3).toUInt32

def wireType (tag : UInt64) : UInt8 :=
  (tag &&& 0x07).toUInt8

inductive Outcome where
  | returned (flow : String)
  | outOfRange
deriving DecidableEq

namespace parseFlowFromAddons

def payloadStep (data : List UInt8) (number : UInt32) (cursor len : Nat) : Loop.Step Nat Outcome :=
  if Usize.add cursor len > data.length then
    .done (.returned "")
  else if number = 1 then
    match slice data cursor (Usize.add cursor len) with
    | none => .done .outOfRange
    | some bytes =>
      match fromUtf8 bytes with
      | some flow => .done (.returned flow)
      | none => .next (Usize.add cursor len)
  else
    .next (Usize.add cursor len)

def step (data : List UInt8) (cursor : Nat) : Loop.Step Nat Outcome :=
  if cursor < data.length then
    match readVarint data cursor with
    | none => .done (.returned "")
    | some (tag, cursor) =>
      match (wireType tag).toNat with
      | 2 =>
        match readVarint data cursor with
        | none => .done (.returned "")
        | some (len, cursor) => payloadStep data (fieldNumber tag) cursor len.toNat
      | 0 =>
        match readVarint data cursor with
        | none => .done (.returned "")
        | some (_, cursor) => .next cursor
      | 1 => .next (Usize.saturatingAdd cursor 8)
      | 5 => .next (Usize.saturatingAdd cursor 4)
      | _ => .done (.returned "")
  else
    .done (.returned "")

end parseFlowFromAddons

def parseFlowFromAddons (fuel : Nat) (data : List UInt8) : Option Outcome :=
  Loop.run (parseFlowFromAddons.step data) fuel 0

open Reading

def cmdTcp : UInt8 := 0x01

def cmdUdp : UInt8 := 0x02

def cmdMux : UInt8 := 0x03

def muxCoolDomain : String := "v1.mux.cool"

def atypIpv4 : UInt8 := 0x01

def atypDomain : UInt8 := 0x02

def atypIpv6 : UInt8 := 0x03

def vlessVersion : UInt8 := 0x00

abbrev Uuid := Vector UInt8 16

inductive Command where
  | tcp
  | udp
  | mux
deriving DecidableEq

structure VlessRequest where
  uuid : Uuid
  command : Command
  dest : Address
  flow : String

/--
How a decoder stops without a request: with an error, with a panic, or not at all as far as its fuel
goes.
-/
inductive Halt where
  | error (e : ProxyError)
  | panic
  | running

abbrev Decoding := EStateM Halt (Source UInt8 IoError)

instance : MonadLift Reading Decoding where
  monadLift := EStateM.adaptExcept Halt.error

def readAddress (atyp : UInt8) (port : Nat) : Reading Address :=
  if atyp = atypIpv4 then do
    let buf ← readExact 4
    return .ipv4 (BitVec.ofNat 32 (ofBigEndian buf)) port
  else if atyp = atypIpv6 then do
    let buf ← readExact 16
    return .ipv6 (BitVec.ofNat 128 (ofBigEndian buf)) port
  else if atyp = atypDomain then do
    let len ← readU8
    let name ← readExact len.toNat
    match fromUtf8 name with
    | none => throw (.protocol "domain name is not valid UTF-8")
    | some name => return .domain name port
  else
    throw (.protocol ("unknown VLESS ATYP " ++ hex atyp.toNat))

def readAddons (fuel addonsLen : Nat) : Decoding String :=
  if addonsLen > 0 then do
    let addons ← readExact addonsLen
    match parseFlowFromAddons fuel addons with
    | some (.returned flow) => return flow
    | some .outOfRange => throw .panic
    | none => throw .running
  else
    return ""

def readCommand : Reading Command := do
  let cmd ← readU8
  if cmd = cmdTcp then
    return .tcp
  else if cmd = cmdUdp then
    return .udp
  else if cmd = cmdMux then
    return .mux
  else
    throw (.protocol ("unknown VLESS CMD " ++ hex cmd.toNat))

-- A request to multiplex has no address on the wire.
def readDest (command : Command) : Reading Address :=
  if command = .mux then
    return .domain muxCoolDomain 0
  else do
    let port ← readU16
    let atyp ← readU8
    readAddress atyp port

def readVersion : Reading Unit := do
  let ver ← readU8
  if ver = vlessVersion then
    return ()
  else
    throw (.protocol ("VLESS version " ++ hex ver.toNat ++ " not supported"))

def decodeRequest (fuel : Nat) : Decoding VlessRequest := do
  readVersion
  let uuid ← readExact 16
  let addonsLen ← readU8
  let flow ← readAddons fuel addonsLen.toNat
  let command ← readCommand
  let dest ← readDest command
  return ⟨toVector 16 uuid, command, dest, flow⟩

def putVarint (value : Nat) : Bytes :=
  if value ≥ 0x80 then
    (UInt8.ofNat value ||| 0x80) :: putVarint (value >>> 7)
  else
    [UInt8.ofNat value]
termination_by value
decreasing_by
  rw [Nat.shiftRight_eq_div_pow]
  omega

def flowAddons (flow : String) : Bytes :=
  let flowBytes := ofString flow
  0x0A :: (putVarint flowBytes.length ++ flowBytes)

def encodeAddons (flow : String) : Except ProxyError Bytes :=
  if flow.isEmpty then
    .ok [0]
  else
    let addons := flowAddons flow
    if addons.length > 255 then
      .error (.protocol "VLESS addons too long")
    else
      .ok (UInt8.ofNat addons.length :: addons)

def Command.byte : Command → UInt8
  | tcp => cmdTcp
  | udp => cmdUdp
  | mux => cmdMux

def encodeAddressPort (dest : Address) : Except ProxyError Bytes :=
  match dest with
  | .ipv4 ip port => .ok (toBigEndian 2 port ++ (atypIpv4 :: toBigEndian 4 ip.toNat))
  | .ipv6 ip port => .ok (toBigEndian 2 port ++ (atypIpv6 :: toBigEndian 16 ip.toNat))
  | .domain name port => do
    let len ← domainWireLen name
    return toBigEndian 2 port ++ (atypDomain :: len :: ofString name)

-- The source writes out a second time here what `encode_address_port` does.
def encodeDest (command : Command) (dest : Address) : Except ProxyError Bytes :=
  if command = .mux then .ok [] else encodeAddressPort dest

def encodeRequest (uuid : Uuid) (flow : String) (command : Command) (dest : Address)
    : Except ProxyError Bytes := do
  let addons ← encodeAddons flow
  let address ← encodeDest command dest
  return vlessVersion :: (uuid.toList ++ addons ++ command.byte :: address)

def addressPortWireLen (data : Bytes) : Except ProxyError Nat :=
  if data.length < 4 then
    .error (.protocol "VLESS UDP address too short")
  else
    let atyp := data.getD 2 0
    if atyp = atypIpv4 then
      .ok (2 + 1 + 4)
    else if atyp = atypIpv6 then
      .ok (2 + 1 + 16)
    else if atyp = atypDomain then
      let nameLen := byteAt data 3
      if data.length < 4 + nameLen then
        .error (.protocol "VLESS UDP address truncated")
      else
        match fromUtf8 ((data.drop 4).take nameLen) with
        | none => .error (.protocol "domain name is not valid UTF-8")
        | some name => do
          let _ ← domainWireLen name
          return 2 + 1 + (1 + nameLen)
    else
      .error (.protocol ("VLESS UDP: unsupported address type " ++ hex atyp.toNat))

def readSync (cursor : Bytes) (n : Nat) : Except ProxyError (Bytes × Bytes) :=
  if n ≤ cursor.length then
    .ok (cursor.take n, cursor.drop n)
  else
    .error (.protocol "failed to fill whole buffer")

def decodeAddressSync (cursor : Bytes) (atyp : UInt8) (port : Nat) : Except ProxyError Address :=
  if atyp = atypIpv4 then do
    let (buf, _) ← readSync cursor 4
    return .ipv4 (BitVec.ofNat 32 (ofBigEndian buf)) port
  else if atyp = atypIpv6 then do
    let (buf, _) ← readSync cursor 16
    return .ipv6 (BitVec.ofNat 128 (ofBigEndian buf)) port
  else if atyp = atypDomain then do
    let (len, cursor) ← readSync cursor 1
    let (name, _) ← readSync cursor (ofBigEndian len)
    match fromUtf8 name with
    | none => .error (.protocol "domain name is not valid UTF-8")
    | some name => return .domain name port
  else
    .error (.protocol ("unknown VLESS ATYP " ++ hex atyp.toNat))

def decodeAddressPortWithLen (data : Bytes) : Except ProxyError (Address × Nat) :=
  if data.length < 4 then
    .error (.protocol "VLESS UDP address too short")
  else do
    let port := u16At data 0
    let atyp := data.getD 2 0
    let consumed ← addressPortWireLen data
    if data.length < consumed then
      .error (.protocol "VLESS UDP address truncated")
    else
      let addr ← decodeAddressSync (data.drop 3) atyp port
      return (addr, consumed)

def decodeAddressPort (data : Bytes) : Except ProxyError Address := do
  let (addr, _) ← decodeAddressPortWithLen data
  return addr

-- The two functions once more, with the indices and slices that can panic.
namespace Indexed

open Blackwire.Indexed

def addressPortWireLen (data : Bytes) : Res Nat :=
  if data.length < 4 then
    fail (.protocol "VLESS UDP address too short")
  else do
    let atyp ← index data 2
    if atyp = atypIpv4.toNat then
      return 2 + 1 + 4
    else if atyp = atypIpv6.toNat then
      return 2 + 1 + 16
    else if atyp = atypDomain.toNat then
      let nameLen ← index data 3
      if data.length < 4 + nameLen then
        fail (.protocol "VLESS UDP address truncated")
      else
        match fromUtf8 (← range data 4 (4 + nameLen)) with
        | none => fail (.protocol "domain name is not valid UTF-8")
        | some name => do
          let _ ← (domainWireLen name).mapError Failure.error
          return 2 + 1 + (1 + nameLen)
    else
      fail (.protocol ("VLESS UDP: unsupported address type " ++ hex atyp))

def decodeAddressPortWithLen (data : Bytes) : Res (Address × Nat) :=
  if data.length < 4 then
    fail (.protocol "VLESS UDP address too short")
  else do
    let port ← u16 data 0
    let atyp ← index data 2
    let consumed ← addressPortWireLen data
    if data.length < consumed then
      fail (.protocol "VLESS UDP address truncated")
    else
      let cursor ← range data 3 data.length
      let addr ← (decodeAddressSync cursor (UInt8.ofNat atyp) port).mapError .error
      return (addr, consumed)

end Indexed

open Reading Source Fallible

open List hiding Vector

theorem putVarint_of_lt {value : Nat} (h : value < 128)
    : putVarint value = [UInt8.ofNat value] := by
  unfold putVarint
  rw [if_neg (by omega)]

theorem putVarint_of_le {value : Nat} (h : 128 ≤ value) (hlt : value < 256)
    : putVarint value = [UInt8.ofNat value ||| 0x80, 1] := by
  have hshift : value >>> 7 = 1 := by
    omega
  unfold putVarint
  rw [if_pos h, hshift, putVarint_of_lt (by omega)]
  rfl

theorem readVarint_putVarint (data rest : Bytes) (cursor value : Nat) (hvalue : value < 256)
    (h : data.drop cursor = putVarint value ++ rest)
    : readVarint data cursor
        = some (UInt64.ofNat value, cursor + (putVarint value).length) := by
  unfold readVarint
  rw [h]
  by_cases hlt : value < 128
  . have hbyte : ∀ n < 128, UInt8.ofNat n &&& 0x80 = 0
        ∧ (0 : UInt64) ||| ((UInt8.ofNat n &&& 0x7f).toUInt64 <<< UInt64.ofNat 0)
          = UInt64.ofNat n := by
      decide +kernel
    rcases hbyte value hlt with ⟨hlast, hresult⟩
    rw [putVarint_of_lt hlt, singleton_append, readVarint.go, if_pos hlast, hresult]
    rfl
  . have hbytes : ∀ n < 256, 128 ≤ n → (UInt8.ofNat n ||| 0x80) &&& 0x80 ≠ 0
        ∧ (0 : UInt64) ||| (((UInt8.ofNat n ||| 0x80) &&& 0x7f).toUInt64 <<< UInt64.ofNat 0)
            ||| (((1 : UInt8) &&& 0x7f).toUInt64 <<< UInt64.ofNat 7)
          = UInt64.ofNat n := by
      decide +kernel
    rcases hbytes value hvalue (by omega) with ⟨hmore, hresult⟩
    rw [putVarint_of_le (by omega) hvalue, cons_append, singleton_append,
      readVarint.go, if_neg hmore, if_neg (by omega), readVarint.go, if_pos (by decide), hresult]
    rfl

variable (flow : String) (fuel : Nat) (command : Command)

theorem length_flowAddons
    : (flowAddons flow).length
        = 1 + (putVarint (ofString flow).length).length + (ofString flow).length := by
  unfold flowAddons
  simp only [length_cons, length_append]
  omega

theorem parseFlow_flowAddons {flow : String} (h : (flowAddons flow).length ≤ 255)
    : parseFlowFromAddons (fuel + 1) (flowAddons flow) = some (.returned flow) := by
  have hlength := length_flowAddons flow
  apply Loop.run_of_done
  have htag : readVarint (flowAddons flow) 0 = some (10, 1) := by
    rfl
  have hlen := readVarint_putVarint (flowAddons flow) (ofString flow) 1 (ofString flow).length
    (by omega) rfl
  have hvalue : (UInt64.ofNat (ofString flow).length).toNat = (ofString flow).length := by
    apply Nat.mod_eq_of_lt
    omega
  have hslice : slice (flowAddons flow) (1 + (putVarint (ofString flow).length).length)
      (1 + (putVarint (ofString flow).length).length + (ofString flow).length)
      = some (ofString flow) := by
    rw [slice_of_le (by omega)]
    simp only [flowAddons]
    rw [Nat.add_comm 1, drop_succ_cons, drop_left, take_length]
  unfold parseFlowFromAddons.step
  rw [if_pos (by omega), htag]
  dsimp only
  rw [show (wireType 10).toNat = 2 from rfl, hlen]
  dsimp only
  unfold parseFlowFromAddons.payloadStep
  rw [hvalue, Usize.add_eq (by omega), if_neg (by omega), if_pos (by rfl), hslice]
  dsimp only
  rw [fromUtf8_ofString]
  rfl

theorem reads_lift {α : Type} {m : Reading α} {front : Bytes} {x : α} (h : Reads m front x)
    : Reads (liftM m : Decoding α) front x := by
  apply Reads.of_adaptExcept
  exact h

theorem reads_readAddons {flow : String} {addons : Bytes} (h : encodeAddons flow = .ok addons)
    : ∃ len rest, addons = len :: rest ∧ Reads (readAddons (fuel + 1) len.toNat) rest flow := by
  unfold encodeAddons at h
  split at h
  next hempty =>
    cases h
    refine ⟨0, [], rfl, ?_⟩
    rw [String.isEmpty_iff.mp hempty]
    apply Reads.of_pure
  next =>
    dsimp only at h
    split at h
    next => cases h
    next hshort =>
      cases h
      have hvalue : (UInt8.ofNat (flowAddons flow).length).toNat = (flowAddons flow).length := by
        apply Nat.mod_eq_of_lt
        omega
      have hlength := length_flowAddons flow
      refine ⟨_, _, rfl, ?_⟩
      unfold readAddons
      rw [hvalue, if_pos (by omega)]
      apply Reads.of_bind_last
      . apply reads_lift
        apply reads_exact
        rfl
      . rw [parseFlow_flowAddons fuel (by omega)]
        apply Reads.of_pure

theorem reads_readVersion : Reads readVersion [vlessVersion] () := by
  apply Reads.of_bind_last
  . apply reads_u8
  . rw [if_pos rfl]
    apply Reads.of_pure

theorem reads_readCommand : Reads readCommand [command.byte] command := by
  apply Reads.of_bind_last
  . apply reads_u8
  . cases command <;> apply Reads.of_pure

theorem reads_readAddress {dest : Address} (h : encodeAddressPort dest = .ok bytes)
    : ∃ atyp rest, bytes = toBigEndian 2 dest.port ++ (atyp :: rest)
        ∧ Reads (readAddress atyp dest.port) rest dest := by
  cases dest with
  | ipv4 ip port =>
    cases h
    refine ⟨atypIpv4, _, rfl, ?_⟩
    apply Reads.of_bind_last
    . apply reads_exact
      apply length_toBigEndian
    . rw [ofNat_ofBigEndian_toBigEndian 4 rfl]
      apply Reads.of_pure
  | ipv6 ip port =>
    cases h
    refine ⟨atypIpv6, _, rfl, ?_⟩
    apply Reads.of_bind_last
    . apply reads_exact
      apply length_toBigEndian
    . rw [ofNat_ofBigEndian_toBigEndian 16 rfl]
      apply Reads.of_pure
  | domain name port =>
    simp only [encodeAddressPort, bind_eq_ok, pure_eq_ok] at h
    rcases h with ⟨len, hlen, rfl⟩
    have hvalue := toNat_of_domainWireLen hlen
    refine ⟨atypDomain, _, rfl, ?_⟩
    change Reads _ ([len] ++ ofString name) _
    apply Reads.of_bind
    . apply reads_u8
    . rw [hvalue]
      apply Reads.of_bind_last
      . apply reads_exact
        rfl
      . rw [fromUtf8_ofString]
        apply Reads.of_pure

theorem readSync_append (front rest : Bytes) {n : Nat} (h : front.length = n)
    : readSync (front ++ rest) n = .ok (front, rest) := by
  have hle : n ≤ (front ++ rest).length := by
    rw [length_append]
    omega
  unfold readSync
  rw [if_pos hle, take_left' h, drop_left' h]

theorem addressPortWireLen_domain {name : String} {len : UInt8} (h : domainWireLen name = .ok len)
    {port : Nat} {rest : Bytes}
    : addressPortWireLen (toBigEndian 2 port ++ (atypDomain :: len :: (ofString name ++ rest)))
        = .ok (4 + (ofString name).length) := by
  let data := toBigEndian 2 port ++ (atypDomain :: len :: (ofString name ++ rest))
  have hatyp : data.getD 2 0 = atypDomain := rfl
  have hdrop : data.drop 4 = ofString name ++ rest := rfl
  have hbyte : byteAt data 3 = (ofString name).length := toNat_of_domainWireLen h
  have hlong : data.length = 4 + (ofString name).length + rest.length := by
    simp only [data, length_append, length_toBigEndian, length_cons]
    omega
  unfold addressPortWireLen
  rw [hatyp, hdrop, hbyte, hlong, if_neg (by omega), if_neg (by decide), if_neg (by decide),
    if_pos rfl, if_neg (by omega), take_left, fromUtf8_ofString]
  simp only [h, bind_eq_ok, pure_eq_ok]
  exact ⟨len, rfl, by omega⟩

theorem decodeAddressSync_encode {dest : Address} (h : encodeAddressPort dest = .ok bytes)
    : ∃ atyp front, bytes = toBigEndian 2 dest.port ++ (atyp :: front) ∧ 0 < front.length
        ∧ ∀ rest, decodeAddressSync (front ++ rest) atyp dest.port = .ok dest
          ∧ addressPortWireLen (toBigEndian 2 dest.port ++ (atyp :: (front ++ rest)))
            = .ok (3 + front.length) := by
  cases dest with
  | ipv4 ip port =>
    cases h
    refine ⟨atypIpv4, toBigEndian 4 ip.toNat, rfl, Nat.succ_pos 3, fun rest => ⟨?_, rfl⟩⟩
    unfold decodeAddressSync
    rw [if_pos rfl, readSync_append _ _ (length_toBigEndian _ _)]
    simp only [bind_eq_ok, pure_eq_ok]
    exact ⟨_, rfl, by rw [ofNat_ofBigEndian_toBigEndian 4 rfl, Address.port]⟩
  | ipv6 ip port =>
    cases h
    refine ⟨atypIpv6, toBigEndian 16 ip.toNat, rfl, Nat.succ_pos 15, fun rest => ⟨?_, rfl⟩⟩
    unfold decodeAddressSync
    rw [if_neg (by decide), if_pos rfl, readSync_append _ _ (length_toBigEndian _ _)]
    simp only [bind_eq_ok, pure_eq_ok]
    exact ⟨_, rfl, by rw [ofNat_ofBigEndian_toBigEndian 16 rfl, Address.port]⟩
  | domain name port =>
    simp only [encodeAddressPort, bind_eq_ok, pure_eq_ok] at h
    rcases h with ⟨len, hlen, rfl⟩
    have hvalue := toNat_of_domainWireLen hlen
    refine ⟨atypDomain, len :: ofString name, rfl, Nat.succ_pos _, fun rest => ⟨?_, ?_⟩⟩
    . have hlength : (ofString name).length = ofBigEndian [len] := by
        rw [← hvalue]
        simp [ofBigEndian]
      unfold decodeAddressSync
      rw [if_neg (by decide), if_neg (by decide), if_pos rfl]
      simp only [bind_eq_ok]
      refine ⟨_, readSync_append [len] (ofString name ++ rest) rfl, _,
        readSync_append (ofString name) rest hlength, ?_⟩
      rw [fromUtf8_ofString]
      rfl
    . rw [length_cons, ← Nat.add_assoc, Nat.add_right_comm]
      exact addressPortWireLen_domain hlen

theorem decodeAddressPortWithLen_encode {bytes : Bytes} (rest : Bytes)
    (hport : dest.port < 65536) (h : encodeAddressPort dest = .ok bytes)
    : decodeAddressPortWithLen (bytes ++ rest) = .ok (dest, bytes.length) := by
  rcases decodeAddressSync_encode h with ⟨atyp, front, rfl, hpos, hdecode⟩
  rcases hdecode rest with ⟨haddr, hconsumed⟩
  have hvalue := u16At_append [] (atyp :: (front ++ rest)) dest.port
  rw [nil_append, length_nil, Nat.mod_eq_of_lt hport] at hvalue
  have hlength : (toBigEndian 2 dest.port ++ (atyp :: front)).length = 3 + front.length := by
    rw [length_append, length_toBigEndian, length_cons]
    omega
  have hlong : (toBigEndian 2 dest.port ++ (atyp :: (front ++ rest))).length
      = 3 + front.length + rest.length := by
    rw [length_append, length_toBigEndian, length_cons, length_append]
    omega
  rw [hlength, append_assoc, cons_append]
  unfold decodeAddressPortWithLen
  rw [hlong, if_neg (by omega)]
  simp only [bind_eq_ok]
  refine ⟨_, hconsumed, ?_⟩
  rw [if_neg (by omega), bind_eq_ok, hvalue]
  exact ⟨dest, haddr, rfl⟩

variable (dest) in
theorem decodeAddressPort_encode (bytes : Bytes) (hport : dest.port < 65536)
    (h : encodeAddressPort dest = .ok bytes)
    : decodeAddressPort bytes = .ok dest := by
  have hdecode := decodeAddressPortWithLen_encode [] hport h
  rw [append_nil] at hdecode
  unfold decodeAddressPort
  rw [hdecode]
  rfl

theorem reads_readDest {command : Command} {dest : Address} (hport : dest.port < 65536)
    (h : encodeDest command dest = .ok bytes)
    : Reads (readDest command) bytes
        (if command = .mux then .domain muxCoolDomain 0 else dest) := by
  unfold readDest
  unfold encodeDest at h
  split at h
  next hmux =>
    cases h
    rw [if_pos hmux, if_pos hmux]
    apply Reads.of_pure
  next hmux =>
    rcases reads_readAddress h with ⟨atyp, rest, rfl, hreads⟩
    rw [if_neg hmux, if_neg hmux]
    apply Reads.of_bind
    . exact reads_u16 hport
    . change Reads _ ([atyp] ++ rest) _
      apply Reads.of_bind
      . apply reads_u8
      . exact hreads

theorem reads_decodeRequest {uuid : Uuid} {flow : String} {command : Command}
    {dest : Address} (hport : dest.port < 65536) {header : Bytes}
    (h : encodeRequest uuid flow command dest = .ok header)
    : Reads (decodeRequest (fuel + 1)) header
        ⟨uuid, command, if command = .mux then .domain muxCoolDomain 0 else dest, flow⟩ := by
  simp only [encodeRequest, bind_eq_ok, pure_eq_ok] at h
  rcases h with ⟨addons, haddons, address, haddress, rfl⟩
  rcases reads_readAddons fuel haddons with ⟨len, rest, rfl, hflow⟩
  have hheader : vlessVersion :: (uuid.toList ++ (len :: rest) ++ command.byte :: address)
      = [vlessVersion] ++ (uuid.toList ++ ([len] ++ (rest ++ ([command.byte]
        ++ (address ++ []))))) := by
    simp
  rw [hheader]
  apply Reads.of_bind
  . apply reads_lift
    apply reads_readVersion
  apply Reads.of_bind
  . apply reads_lift
    apply reads_exact
    apply Vector.length_toList
  apply Reads.of_bind
  . apply reads_lift
    apply reads_u8
  apply Reads.of_bind
  . exact hflow
  apply Reads.of_bind
  . apply reads_lift
    apply reads_readCommand
  apply Reads.of_bind
  . apply reads_lift
    exact reads_readDest hport haddress
  rw [toVector_toList]
  apply Reads.of_pure

theorem encodeAddons_eq_error
    : (∃ e, encodeAddons flow = .error e) ↔ 255 < (flowAddons flow).length := by
  unfold encodeAddons
  split
  next hempty =>
    have hlength : (flowAddons "").length = 2 := by
      rw [length_flowAddons, putVarint_of_lt (by decide)]
      rfl
    rw [String.isEmpty_iff.mp hempty, hlength]
    simp
  next =>
    dsimp only
    split
    next hlong => simp [hlong]
    next hlong => simp [hlong]

def domainTooLong : Address → Prop
  | .domain name _ => 255 < (ofString name).length
  | _ => False

theorem encodeAddressPort_eq_error
    : (∃ e, encodeAddressPort dest = .error e) ↔ domainTooLong dest := by
  cases dest with
  | ipv4 ip port => simp [encodeAddressPort, domainTooLong]
  | ipv6 ip port => simp [encodeAddressPort, domainTooLong]
  | domain name port =>
    simp only [encodeAddressPort, domainTooLong, domainWireLen]
    by_cases hlong : 255 < (ofString name).length
    . simp [hlong]
    . simp [hlong, bind, Except.bind, pure, Except.pure]

theorem encodeDest_eq_error
    : (∃ e, encodeDest command dest = .error e) ↔ command ≠ .mux ∧ domainTooLong dest := by
  unfold encodeDest
  split
  next hmux => simp [hmux]
  next hmux => simp [hmux, encodeAddressPort_eq_error]

theorem encodeRequest_eq_error {uuid : Uuid} {flow : String} {command : Command} {dest : Address}
    : (∃ e, encodeRequest uuid flow command dest = .error e)
        ↔ 255 < (flowAddons flow).length ∨ (command ≠ .mux ∧ domainTooLong dest) := by
  rw [← encodeAddons_eq_error, ← encodeDest_eq_error]
  unfold encodeRequest
  cases encodeAddons flow with
  | error e => simp [bind, Except.bind]
  | ok addons =>
    cases encodeDest command dest with
    | error e => simp [bind, Except.bind]
    | ok address => simp [bind, Except.bind, pure, Except.pure]

theorem vless_request_round_trip (uuid : Uuid) (flow : String) (command : Command) (dest : Address)
    (hport : dest.port < 65536)
    : (∀ header, encodeRequest uuid flow command dest = .ok header →
        ∀ (s : Source UInt8 IoError) (payload : Bytes), s.items = header ++ payload →
          ∀ fuel > 0, ∃ s', decodeRequest fuel s = .ok
              ⟨uuid, command, if command = .mux then .domain muxCoolDomain 0 else dest, flow⟩ s'
            ∧ s'.items = payload)
      ∧ ((∃ e, encodeRequest uuid flow command dest = .error e)
        ↔ 255 < (flowAddons flow).length ∨ (command ≠ .mux ∧ domainTooLong dest)) := by
  refine ⟨?_, encodeRequest_eq_error⟩
  intro header hheader s payload hs fuel hfuel
  rcases Nat.exists_eq_add_of_lt hfuel with ⟨more, rfl⟩
  rw [Nat.zero_add]
  refine ⟨_, reads_decodeRequest more hport hheader s payload hs, ?_⟩
  rw [items_skip, hs, drop_left]

def someUuid : Uuid := Vector.replicate 16 0x11

theorem vless_request_round_trip_vision
    : let header : Bytes := [0] ++ replicate 16 0x11
        ++ [18, 10, 16, 120, 116, 108, 115, 45, 114, 112, 114, 120, 45, 118, 105, 115, 105, 111,
          110]
        ++ [1, 1, 187, 2, 11, 101, 120, 97, 109, 112, 108, 101, 46, 99, 111, 109]
      let s : Source UInt8 IoError := .ofSegments
        [header.take 3, (header.drop 3).take 30, header.drop 33 ++ [22, 3]]
      encodeRequest someUuid "xtls-rprx-vision" .tcp (.domain "example.com" 443) = .ok header
        ∧ ∃ s', decodeRequest 1 s
            = .ok ⟨someUuid, .tcp, .domain "example.com" 443, "xtls-rprx-vision"⟩ s'
          ∧ s'.items = [22, 3] := by
  have hencode : encodeRequest someUuid "xtls-rprx-vision" .tcp (.domain "example.com" 443)
      = .ok ([0] ++ replicate 16 0x11
        ++ [18, 10, 16, 120, 116, 108, 115, 45, 114, 112, 114, 120, 45, 118, 105, 115, 105, 111,
          110]
        ++ [1, 1, 187, 2, 11, 101, 120, 97, 109, 112, 108, 101, 46, 99, 111, 109]) := by
    decide +kernel
  refine ⟨hencode, ?_⟩
  apply (vless_request_round_trip someUuid "xtls-rprx-vision" .tcp (.domain "example.com" 443)
    (by decide)).left _ hencode
  . decide +kernel
  . decide

-- A request to multiplex carries no domain, so none is too long for it.
theorem vless_mux_ignores_domain
    : let dest := Address.domain (String.ofList (replicate 256 'a')) 443
      domainTooLong dest ∧ ∃ header, encodeRequest someUuid "" .mux dest = .ok header := by
  refine ⟨?_, _, rfl⟩
  change 255 < _
  decide +kernel

theorem addressPortWireLen_encode {dest : Address} (h : encodeAddressPort dest = .ok bytes)
    {rest : Bytes}
    : addressPortWireLen (bytes ++ rest) = .ok bytes.length := by
  rcases decodeAddressSync_encode h with ⟨atyp, front, rfl, _, hdecode⟩
  rw [append_assoc, cons_append, (hdecode rest).right, length_append,
    length_toBigEndian, length_cons, ← Nat.add_assoc, Nat.add_right_comm]

namespace Indexed

open Blackwire.Indexed

theorem addressPortWireLen_eq (data : Bytes)
    : addressPortWireLen data = (Vless.addressPortWireLen data).mapError .error := by
  unfold addressPortWireLen Vless.addressPortWireLen
  by_cases hshort : data.length < 4
  . rw [if_pos hshort, if_pos hshort]
    rfl
  rw [if_neg hshort, if_neg hshort, index_eq (by omega), index_eq (by omega)]
  simp only [pure_bind, show byteAt data 2 = (data.getD 2 0).toNat from rfl, UInt8.toNat_inj]
  split
  next => rfl
  split
  next => rfl
  split
  next =>
    by_cases hlong : data.length < 4 + byteAt data 3
    . simp only [if_pos hlong]
      rfl
    simp only [if_neg hlong]
    rw [range_eq data 4 _ (by omega), pure_bind]
    cases fromUtf8 ((data.drop 4).take (byteAt data 3)) with
    | none => rfl
    | some name =>
      dsimp only
      cases domainWireLen name <;> rfl
  next => rfl

theorem decodeAddressPortWithLen_eq (data : Bytes)
    : decodeAddressPortWithLen data
        = (Vless.decodeAddressPortWithLen data).mapError .error := by
  unfold decodeAddressPortWithLen Vless.decodeAddressPortWithLen
  by_cases hshort : data.length < 4
  . rw [if_pos hshort, if_pos hshort]
    rfl
  rw [if_neg hshort, if_neg hshort, u16_eq data 0 (by omega), index_eq (by omega),
    range_length_eq (by omega), addressPortWireLen_eq]
  simp only [pure_bind, byteAt, UInt8.ofNat_toNat]
  cases Vless.addressPortWireLen data with
  | error e => rfl
  | ok consumed =>
    dsimp only [Except.mapError, bind, Except.bind]
    split
    next => rfl
    next => cases decodeAddressSync (data.drop 3) (data.getD 2 0) (u16At data 0) <;> rfl

end Indexed

-- The reader finds what the cursor has, up to where each of them stops.
theorem readSync_bind_iff {s : Source UInt8 IoError} {n : Nat} {x : Address}
    {f : Bytes × Bytes → Except ProxyError Address} {g : Bytes → Reading Address}
    (h : f (s.items.take n, (s.skip n).items) = .ok x
      ↔ ∃ s', g (s.items.take n) (s.skip n) = .ok x s')
    : (readSync s.items n >>= f) = .ok x ↔ ∃ s', (readExact n >>= g) s = .ok x s' := by
  rw [exact_bind]
  unfold readSync
  split
  next =>
    rw [← items_skip]
    exact h
  next => exact ⟨nofun, nofun⟩

theorem throw_iff {s : Source UInt8 IoError} {e : ProxyError} {dest : Address}
    : (.error e : Except ProxyError Address) = .ok dest
        ↔ ∃ s', (throw e : Reading Address) s = .ok dest s' := by
  constructor
  . nofun
  . rintro ⟨s', h⟩
    cases h

theorem decodeAddressSync_iff (s : Source UInt8 IoError) (atyp : UInt8) (port : Nat)
    (dest : Address)
    : decodeAddressSync s.items atyp port = .ok dest
        ↔ ∃ s', readAddress atyp port s = .ok dest s' := by
  unfold decodeAddressSync readAddress
  split
  next =>
    apply readSync_bind_iff
    simp [pure, Except.pure, EStateM.pure]
  next =>
    split
    next =>
      apply readSync_bind_iff
      simp [pure, Except.pure, EStateM.pure]
    next =>
      split
      next =>
        unfold readU8
        rw [bind_assoc]
        apply readSync_bind_iff
        simp only [pure_bind]
        rw [show ofBigEndian (s.items.take 1) = ((s.items.take 1).headD 0).toNat by
          cases s.items <;> simp [ofBigEndian]]
        apply readSync_bind_iff
        cases fromUtf8 ((s.skip 1).items.take ((s.items.take 1).headD 0).toNat) with
        | none => exact throw_iff
        | some name => simp [pure, Except.pure, EStateM.pure]
      next => exact throw_iff

theorem vless_address_helpers_agree
    : (∀ dest bytes, dest.port < 65536 → encodeAddressPort dest = .ok bytes → ∀ rest,
        addressPortWireLen (bytes ++ rest) = .ok bytes.length
          ∧ decodeAddressPortWithLen (bytes ++ rest) = .ok (dest, bytes.length))
      ∧ (∀ data, Indexed.addressPortWireLen data ≠ .error .panic
        ∧ Indexed.decodeAddressPortWithLen data ≠ .error .panic)
      ∧ ∀ (s : Source UInt8 IoError) (atyp : UInt8) (port : Nat) (dest : Address),
        decodeAddressSync s.items atyp port = .ok dest
          ↔ ∃ s', readAddress atyp port s = .ok dest s' := by
  refine ⟨fun dest bytes hport h rest => ⟨?_, ?_⟩, fun data => ⟨?_, ?_⟩, decodeAddressSync_iff⟩
  . exact addressPortWireLen_encode h
  . exact decodeAddressPortWithLen_encode rest hport h
  . rw [Indexed.addressPortWireLen_eq]
    cases addressPortWireLen data <;> nofun
  . rw [Indexed.decodeAddressPortWithLen_eq]
    cases decodeAddressPortWithLen data <;> nofun

theorem vless_address_helpers_agree_domain
    : decodeAddressPortWithLen ([0, 53, 2, 3, 97, 46, 98] ++ [1]) = .ok (.domain "a.b" 53, 7) :=
  (vless_address_helpers_agree.left (.domain "a.b" 53) _ (by decide) (by decide +kernel) [1]).right

end Blackwire.Vless
