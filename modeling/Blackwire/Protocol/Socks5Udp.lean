import Blackwire.Protocol.UdpRelay
import Blackwire.Common.Address

/-!
This module contains the codec for the datagrams of SOCKS5 as other callers than the relay see it:
the parser takes input of any length, and every index and every slice is an operation that can
panic.
-/

namespace Blackwire.Socks5
namespace Indexed

open Bytes Blackwire.Indexed

def parseUdpDatagram (buf : Bytes) : Res (Address × Bytes) :=
  if buf.length < socksUdpHeader then
    fail (.protocol "SOCKS5 UDP datagram too short")
  else do
    let high ← index buf 0
    let low ← index buf 1
    if high ≠ 0 ∨ low ≠ 0 then
      fail (.protocol "SOCKS5 UDP RSV must be zero")
    else
      let frag ← index buf 2
      if frag ≠ 0 then
        fail (.protocol ("SOCKS5 UDP fragment " ++ hex frag ++ " not supported"))
      else
        let atyp ← index buf 3
        let rest ← range buf 4 buf.length
        let (dest, consumed) ← Blackwire.Indexed.decodeSocks5Address rest atyp "SOCKS5 UDP"
        let off := 4 + consumed
        if off > buf.length then
          fail (.protocol "SOCKS5 UDP truncated payload")
        else
          let payload ← range buf off buf.length
          return (dest, payload)

end Indexed

-- The buffer of this one is new, otherwise it is `encode_udp_datagram_into`.
def encodeUdpDatagram (dest : Address) (payload : Bytes) : Except ProxyError Bytes := do
  let addr ← writeSocks5Address dest
  return [0, 0, 0] ++ addr ++ payload

open Bytes List

theorem encodeUdpDatagram_eq (dest : Address) (payload : Bytes)
    : encodeUdpDatagram dest payload = encodeUdpDatagramInto dest payload := by
  unfold encodeUdpDatagram encodeUdpDatagramInto
  simp only [append_assoc]

theorem parseUdpDatagram_encode (hport : dest.port < 65536)
    (h : encodeUdpDatagram dest payload = .ok bytes)
    : parseUdpDatagram bytes = .ok (dest, payload) := by
  simp only [encodeUdpDatagram, Fallible.bind_eq_ok, Fallible.pure_eq_ok] at h
  rcases h with ⟨addr, haddr, rfl⟩
  rcases decodeSocks5Address_write hport haddr with ⟨atyp, front, rfl, hdecode⟩
  simp only [cons_append, nil_append, parseUdpDatagram, hdecode, length_cons,
    length_append, drop_left]
  rw [if_neg (by simp), if_neg (by simp), if_neg (by omega)]

namespace Indexed

open Blackwire.Indexed

theorem parseUdpDatagram_eq (h : 4 ≤ buf.length)
    : parseUdpDatagram buf = (Socks5.parseUdpDatagram buf).mapError .error := by
  match buf, h with
  | rsv :: rsv' :: frag :: atyp :: rest, _ =>
    unfold parseUdpDatagram Socks5.parseUdpDatagram
    rw [if_neg (by simp [socksUdpHeader]), index_eq (by simp), index_eq (by simp),
      index_eq (by simp), index_eq (by simp), range_length_eq (by simp)]
    simp only [pure_bind, byteAt, getD_cons_zero, getD_cons_succ, drop_succ_cons,
      drop_zero, ne_eq, ← UInt8.toNat_inj, UInt8.toNat_zero]
    split
    next => rfl
    split
    next => rfl
    rw [decodeSocks5Address_eq]
    cases Blackwire.decodeSocks5Address rest atyp "SOCKS5 UDP" with
    | error e => rfl
    | ok found =>
      dsimp only [Except.mapError, bind, Except.bind]
      split
      next => rfl
      next hfits =>
        rw [range_length_eq (by omega), Nat.add_comm, drop_succ_cons,
          drop_succ_cons, drop_succ_cons, drop_succ_cons]
        rfl

theorem parseUdpDatagram_panic_iff
    : parseUdpDatagram buf = .error .panic ↔ buf = [0, 0, 0] := by
  by_cases hlong : 4 ≤ buf.length
  . rw [parseUdpDatagram_eq hlong]
    constructor
    . intro h
      cases hparse : Socks5.parseUdpDatagram buf with
      | error e =>
        rw [hparse] at h
        cases h
      | ok found =>
        rw [hparse] at h
        cases h
    . rintro rfl
      exact absurd hlong (by decide)
  . match buf, hlong with
    | [], _ => exact ⟨nofun, nofun⟩
    | [_], _ => exact ⟨nofun, nofun⟩
    | [_, _], _ => exact ⟨nofun, nofun⟩
    | [rsv, rsv', frag], _ =>
      unfold parseUdpDatagram
      rw [if_neg (by simp [socksUdpHeader]), index_eq (by simp), index_eq (by simp),
        index_eq (by simp)]
      simp only [pure_bind, byteAt, getD_cons_zero, getD_cons_succ,
        List.cons.injEq, and_true, ← UInt8.toNat_inj, UInt8.toNat_zero]
      split
      next h =>
        simp only [fail, Except.error.injEq, reduceCtorEq, false_iff]
        omega
      next h =>
        split
        next hfrag =>
          simp only [fail, Except.error.injEq, reduceCtorEq, false_iff]
          omega
        next hfrag => exact ⟨fun _ => by omega, fun _ => rfl⟩
    | _ :: _ :: _ :: _ :: rest, hlong => exact absurd (Nat.le_add_left 4 rest.length) hlong

end Indexed

theorem socks5_udp_codec (buf : Bytes)
    : (Indexed.parseUdpDatagram buf ≠ .error .panic ↔ buf ≠ [0, 0, 0])
      ∧ ∀ dest payload, dest.port < 65536 →
        (∀ name port, dest = .domain name port → (ofString name).length ≤ 255) →
        ∃ bytes, encodeUdpDatagram dest payload = .ok bytes
          ∧ encodeUdpDatagramInto dest payload = .ok bytes
          ∧ Indexed.parseUdpDatagram bytes = .ok (dest, payload) := by
  constructor
  . exact not_congr Indexed.parseUdpDatagram_panic_iff
  . intro dest payload hport hname
    rcases isOk_writeSocks5Address hname with ⟨addr, haddr⟩
    have hencode : encodeUdpDatagram dest payload = .ok ([0, 0, 0] ++ addr ++ payload) := by
      unfold encodeUdpDatagram
      rw [haddr]
      rfl
    refine ⟨_, hencode, ?_, ?_⟩
    . rw [← encodeUdpDatagram_eq, hencode]
    . have hlong : 4 ≤ ([0, 0, 0] ++ addr ++ payload).length := by
        rcases decodeSocks5Address_write hport haddr with ⟨atyp, front, rfl, _⟩
        simp
      rw [Indexed.parseUdpDatagram_eq hlong, parseUdpDatagram_encode hport hencode]
      rfl

theorem socks5_udp_codec_domain
    : Indexed.parseUdpDatagram [0, 0, 1] ≠ .error .panic
      ∧ ∃ bytes, encodeUdpDatagram (.domain "a.b" 53) [1, 2] = .ok bytes
        ∧ Indexed.parseUdpDatagram bytes = .ok (.domain "a.b" 53, [1, 2]) := by
  constructor
  . exact (socks5_udp_codec [0, 0, 1]).left.mpr (by decide)
  . rcases (socks5_udp_codec []).right (.domain "a.b" 53) [1, 2] (by decide)
      (by
        rintro name port ⟨⟩
        decide +kernel) with ⟨bytes, hencode, _, hparse⟩
    exact ⟨bytes, hencode, hparse⟩

theorem parse_udp_datagram_three_zeros : Indexed.parseUdpDatagram [0, 0, 0] = .error .panic := by
  decide

end Blackwire.Socks5
