import Mathlib.Data.Prod.Lex
import Mathlib.Data.Nat.Bitwise

/-!
This module contains the address types of the standard library and the network type of the `ipnet`
crate, with the order that the derived comparison of that crate gives to networks.
-/

namespace Blackwire

inductive IpAddr where
  | v4 (addr : BitVec 32)
  | v6 (addr : BitVec 128)
deriving DecidableEq

def IpAddr.fullPrefix : IpAddr → Nat
  | .v4 _ => 32
  | .v6 _ => 128

structure Net (w : Nat) where
  addr : BitVec w
  prefixLen : Nat
  prefixLen_le : prefixLen ≤ w

namespace Net

section

variable (n : Net w)

def netmask : BitVec w :=
  BitVec.allOnes w <<< (w - n.prefixLen)

def hostmask : BitVec w :=
  BitVec.allOnes w >>> n.prefixLen

def network : BitVec w :=
  n.addr &&& n.netmask

def broadcast : BitVec w :=
  n.addr ||| n.hostmask

def contains (ip : BitVec w) : Bool :=
  decide (n.network ≤ ip) && decide (ip ≤ n.broadcast)

def Covers (ip : BitVec w) : Prop :=
  n.addr >>> (w - n.prefixLen) = ip >>> (w - n.prefixLen)

end

instance (n : Net w) (ip : BitVec w) : Decidable (n.Covers ip) :=
  inferInstanceAs (Decidable (_ = _))

theorem toNat_network (n : Net w)
    : n.network.toNat = 2 ^ (w - n.prefixLen) * (n.addr.toNat / 2 ^ (w - n.prefixLen)) := by
  have hmask : n.network = (n.addr >>> (w - n.prefixLen)) <<< (w - n.prefixLen) := by
    unfold network netmask
    apply BitVec.eq_of_getLsbD_eq
    intro i hi
    by_cases hlow : i < w - n.prefixLen
    . simp [hlow]
    . have hback : w - n.prefixLen + (i - (w - n.prefixLen)) = i := by omega
      have hin : i - (w - n.prefixLen) < w := by omega
      simp [hlow, hback, hi]
  have hle := Nat.mul_div_le n.addr.toNat (2 ^ (w - n.prefixLen))
  rw [hmask]
  rw [BitVec.toNat_shiftLeft]
  rw [BitVec.toNat_ushiftRight]
  rw [Nat.shiftRight_eq_div_pow, Nat.shiftLeft_eq, Nat.mul_comm]
  apply Nat.mod_eq_of_lt
  omega

theorem toNat_hostmask (n : Net w) : n.hostmask.toNat = 2 ^ (w - n.prefixLen) - 1 := by
  have hpow : 2 ^ w = 2 ^ (w - n.prefixLen) * 2 ^ n.prefixLen := by
    rw [← Nat.pow_add]
    have := n.prefixLen_le
    congr 1
    omega
  have hpos := Nat.two_pow_pos (w - n.prefixLen)
  have hpos' := Nat.two_pow_pos n.prefixLen
  unfold hostmask
  rw [BitVec.toNat_ushiftRight]
  rw [BitVec.toNat_allOnes]
  rw [Nat.shiftRight_eq_div_pow]
  rw [hpow]
  rw [Nat.mul_comm]
  rw [Nat.mul_sub_div _ _ _ (by exact Nat.mul_pos hpos' hpos)]
  simp

theorem toNat_broadcast (n : Net w)
    : n.broadcast.toNat
        =
      2 ^ (w - n.prefixLen) * (n.addr.toNat / 2 ^ (w - n.prefixLen))
        + (2 ^ (w - n.prefixLen) - 1) := by
  have hpos := Nat.two_pow_pos (w - n.prefixLen)
  unfold broadcast
  rw [BitVec.toNat_or]
  rw [toNat_hostmask]
  rw [Nat.two_pow_add_eq_or_of_lt (by omega)]
  apply Nat.eq_of_testBit_eq
  intro i
  simp only [Nat.testBit_or, Nat.testBit_two_pow_mul, Nat.testBit_div_two_pow]
  by_cases hlow : i < w - n.prefixLen
  . simp [hlow]
  . have hback : w - n.prefixLen + (i - (w - n.prefixLen)) = i := by omega
    have hge : w - n.prefixLen ≤ i := by omega
    simp [hge]

theorem contains_iff (n : Net w) (ip : BitVec w) : n.contains ip = true ↔ n.Covers ip := by
  have hpos := Nat.two_pow_pos (w - n.prefixLen)
  unfold contains Covers
  simp only [Bool.and_eq_true, decide_eq_true_eq, BitVec.le_def]
  rw [toNat_network, toNat_broadcast, ← BitVec.toNat_inj]
  simp only [BitVec.toNat_ushiftRight, Nat.shiftRight_eq_div_pow]
  rw [eq_comm, Nat.div_eq_iff hpos, Nat.mul_comm]
  omega

end Net

inductive IpNet where
  | v4 (net : Net 32)
  | v6 (net : Net 128)

namespace IpNet

def new (ip : IpAddr) (prefixLen : Nat) : Except String IpNet :=
  match ip with
  | .v4 addr => if h : prefixLen ≤ 32 then .ok (.v4 ⟨addr, prefixLen, h⟩) else .error err
  | .v6 addr => if h : prefixLen ≤ 128 then .ok (.v6 ⟨addr, prefixLen, h⟩) else .error err
where
  err := "invalid IP prefix length"

def contains (net : IpNet) (ip : IpAddr) : Bool :=
  match net, ip with
  | .v4 net, .v4 addr => net.contains addr
  | .v6 net, .v6 addr => net.contains addr
  | _, _ => false

def Covers (net : IpNet) (ip : IpAddr) : Prop :=
  match net, ip with
  | .v4 net, .v4 addr => net.Covers addr
  | .v6 net, .v6 addr => net.Covers addr
  | _, _ => False

theorem contains_iff (net : IpNet) (ip : IpAddr) : net.contains ip = true ↔ net.Covers ip := by
  cases net <;> cases ip <;> simp [contains, Covers, Net.contains_iff]

instance (net : IpNet) (ip : IpAddr) : Decidable (net.Covers ip) :=
  decidable_of_iff _ (contains_iff net ip)

-- The derived order compares the family, then the address, then the length of the prefix.
def key : IpNet → Nat ×ₗ Nat ×ₗ Nat
  | .v4 net => toLex (0, toLex (net.addr.toNat, net.prefixLen))
  | .v6 net => toLex (1, toLex (net.addr.toNat, net.prefixLen))

theorem key_injective : Function.Injective key := by
  intro net net' h
  rcases net with ⟨addr, len, hlen⟩ | ⟨addr, len, hlen⟩ <;>
    rcases net' with ⟨addr', len', hlen'⟩ | ⟨addr', len', hlen'⟩ <;>
    simp_all [key, BitVec.toNat_inj]

instance : LinearOrder IpNet :=
  LinearOrder.lift' key key_injective

def host : IpAddr → IpNet
  | .v4 addr => .v4 ⟨addr, 32, Nat.le_refl 32⟩
  | .v6 addr => .v6 ⟨addr, 128, Nat.le_refl 128⟩

theorem new_fullPrefix (ip : IpAddr) : new ip ip.fullPrefix = .ok (host ip) := by
  cases ip <;> rfl

end IpNet
end Blackwire
