import Blackwire.Lib.Machine
import Blackwire.Protocol.Vmess.Stream

/-!
This module contains the authentication of VMess connections at an inbound. The server keeps no
record of the auth ids that it has let in. The block cipher and the checksum are parameters.
-/

namespace Blackwire.Vmess

open Bytes

def maxTimeDiffSecs : Nat := 120

def kdfAuthId : Bytes := ofString "AES Auth ID Encryption"

structure AuthCrypto where
  hashes : Hashes
  aes128EcbDecrypt (key : Vector UInt8 16) (block : Vector UInt8 16) : Vector UInt8 16
  crc32 (data : Bytes) : Nat

namespace AuthCrypto

variable (c : AuthCrypto)

section

variable (cmdKey : Bytes) (authId : Vector UInt8 16)

def block : Bytes :=
  (c.aes128EcbDecrypt (kdf c.hashes cmdKey [kdfAuthId]) authId).toList

def opens : Bool :=
  c.crc32 ((c.block cmdKey authId).take 12) = ofBigEndian ((c.block cmdKey authId).drop 12)

def timestamp : Nat :=
  ofBigEndian ((c.block cmdKey authId).take 8)

def absDiff (m n : Nat) : Nat := max m n - min m n

def validateAuthId (maxDiffSecs now : Nat) : Bool :=
  c.opens cmdKey authId && absDiff now (c.timestamp cmdKey authId) ≤ maxDiffSecs

end

-- The keys are those of the registry in the order in which it is walked.
def findByAuth (keys : List Bytes) (authId : Vector UInt8 16) (now : Nat) : Option Bytes :=
  keys.find? fun key => c.validateAuthId key authId maxTimeDiffSecs now

end AuthCrypto

structure Handshake where
  now : Nat
  authId : Vector UInt8 16

/--
The handshakes that got past the authentication, the newest one first.
-/
abbrev Inbound := List Handshake

namespace Inbound

variable (c : AuthCrypto) (keys : List Bytes)

def handle (s : Inbound) (h : Handshake) : Inbound :=
  if (c.findByAuth keys h.authId h.now).isSome then h :: s else s

/--
The clock does not go back, and an auth id comes again only when the time at which it was let in is
more than two windows ago.
-/
def Spaced (s : Inbound) (h : Handshake) : Prop :=
  ∀ h' ∈ s, h'.now ≤ h.now ∧ (h'.authId = h.authId → h'.now + 2 * maxTimeDiffSecs < h.now)

instance (s : Inbound) (h : Handshake) : Decidable (s.Spaced h) :=
  inferInstanceAs (Decidable (∀ h' ∈ s, _))

theorem isSome_findByAuth (h : (c.findByAuth keys authId now).isSome)
    : ∃ key ∈ keys, c.opens key authId = true
        ∧ AuthCrypto.absDiff now (c.timestamp key authId) ≤ maxTimeDiffSecs := by
  rcases Option.isSome_iff_exists.mp h with ⟨key, hkey⟩
  have hvalid := List.find?_some hkey
  simp only [AuthCrypto.validateAuthId, Bool.and_eq_true, decide_eq_true_eq] at hvalid
  exact ⟨key, List.mem_of_find?_eq_some hkey, hvalid⟩

end Inbound

def plainAuth : AuthCrypto :=
  ⟨⟨fun _ => .replicate 16 0, fun _ => .replicate 32 0, fun _ _ => .replicate 32 0, fun _ _ => 0⟩,
    fun _ block => block, fun _ => 0⟩

def zeroId : Vector UInt8 16 := .replicate 16 0

def presented (times : List Nat) : Inbound :=
  (times.map (⟨·, zeroId⟩)).foldl (Inbound.handle plainAuth [[]]) []

end Blackwire.Vmess
