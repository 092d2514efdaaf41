import Mathlib.Data.List.Count
import Mathlib.Data.List.Rotate
import Blackwire.Core.Instance

/-!
This module contains how a balancer picks one of its members for a connection, and proves that the
round robin is fair while no member changes its health. A pick by turns counts the members that are
alive and then looks for one of them, and each of the two scans sees the health at its own time. The
scores of the adaptive strategy are floating point numbers, so what it picks is a parameter.
-/

namespace Blackwire

open List

structure OutboundState where
  alive : Bool
  latencyMs : UInt64

namespace Balancer

variable (states states' : String → Option OutboundState) (b : Balancer)

def isAlive (member : BalancerMember) : Bool :=
  (states member.outboundTag).elim true OutboundState.alive

def nthAliveIndex (n : Nat) : List BalancerMember → (idx memberIdx : Nat) → Option Nat
  | [], _, _ => none
  | member :: members, idx, memberIdx =>
    if !isAlive states member then
      nthAliveIndex n members idx (memberIdx + 1)
    else if idx = n then
      some memberIdx
    else
      nthAliveIndex n members (idx + 1) (memberIdx + 1)

def aliveCount : Nat :=
  b.members.countP (isAlive states)

def firstMemberIndex : Option Nat :=
  if b.members.isEmpty then none else some 0

def latency (member : BalancerMember) : UInt64 :=
  (states member.outboundTag).elim 0xFFFFFFFFFFFFFFFF OutboundState.latencyMs

def faster (best : Option (UInt64 × Nat)) : BalancerMember × Nat → Option (UInt64 × Nat)
  | (member, idx) =>
    if isAlive states member && best.all (latency states member < ·.fst) then
      some (latency states member, idx)
    else
      best

def pickLatencyIndex : Option Nat :=
  ((b.members.zipIdx.foldl (faster states) none).map Prod.snd).or b.firstMemberIndex

def pickMemberIndex (pickAdaptiveIndex : Option Nat) (rrCounter : UInt64) : Option Nat × UInt64 :=
  let pickSlot (n : UInt64) :=
    let alive := b.aliveCount states
    if alive = 0 then
      (b.firstMemberIndex, rrCounter)
    else
      (nthAliveIndex states' (n.toNat % alive) b.members 0 0, rrCounter + 1)
  match b.strategy with
  | .latency => (b.pickLatencyIndex states, rrCounter)
  | .roundRobin => pickSlot rrCounter
  | .random => pickSlot (rrCounter * 0x9E3779B97F4A7C15)
  | .adaptive => (pickAdaptiveIndex, rrCounter)

def picks (pickAdaptiveIndex : Option Nat) (rrCounter : UInt64) : Nat → List (Option Nat)
  | 0 => []
  | n + 1 =>
    let (pick, rrCounter) := b.pickMemberIndex states states pickAdaptiveIndex rrCounter
    pick :: picks pickAdaptiveIndex rrCounter n

def aliveFrom (memberIdx : Nat) (members : List BalancerMember) : List Nat :=
  ((members.zipIdx memberIdx).filter (isAlive states ·.fst)).map Prod.snd

theorem nodup_aliveFrom (memberIdx : Nat) (members : List BalancerMember)
    : (aliveFrom states memberIdx members).Nodup := by
  have hsub := (filter_sublist (l := members.zipIdx memberIdx)
    (p := (isAlive states ·.fst))).map Prod.snd
  rw [zipIdx_map_snd] at hsub
  exact hsub.nodup nodup_range'

variable {states states' b}

theorem nthAliveIndex_eq {members : List BalancerMember} (memberIdx : Nat) (h : idx ≤ n)
    : nthAliveIndex states n members idx memberIdx
        = (aliveFrom states memberIdx members)[n - idx]? := by
  induction members generalizing idx memberIdx with
  | nil => rfl
  | cons member members ih =>
    unfold nthAliveIndex aliveFrom
    cases halive : isAlive states member with
    | false =>
      simpa [aliveFrom, halive] using ih (memberIdx + 1) h
    | true =>
      by_cases heq : idx = n
      . simp [heq, halive]
      . have hrest := ih (memberIdx + 1) (show idx + 1 ≤ n by omega)
        rw [show n - idx = n - (idx + 1) + 1 by omega]
        simpa [aliveFrom, halive, heq] using hrest

theorem length_aliveFrom
    : (aliveFrom states memberIdx b.members).length = b.aliveCount states := by
  rw [aliveFrom, length_map, ← countP_eq_length_filter, aliveCount]
  conv => rhs; rw [← zipIdx_map_fst memberIdx b.members, countP_map]
  rfl

theorem mem_aliveFrom
    : i ∈ aliveFrom states 0 b.members ↔ b.members[i]?.any (isAlive states) = true := by
  simp [aliveFrom, mem_zipIdx_iff_getElem?, Option.any_eq_true]

theorem picks_eq (hstrategy : b.strategy = .roundRobin) (halive : b.aliveCount states ≠ 0)
    (hcounter : rrCounter.toNat + n ≤ 2 ^ 64)
    : b.picks states adaptive rrCounter n = (range n).map fun i =>
        (aliveFrom states 0 b.members)[(rrCounter.toNat + i) % b.aliveCount states]? := by
  induction n generalizing rrCounter with
  | zero => rfl
  | succ n ih =>
    have hpick : b.pickMemberIndex states states adaptive rrCounter
        = (nthAliveIndex states (rrCounter.toNat % b.aliveCount states) b.members 0 0,
          rrCounter + 1) := by
      simp [pickMemberIndex, hstrategy, halive]
    rw [picks, hpick, nthAliveIndex_eq 0 (Nat.zero_le _), range_succ_eq_map, map_cons, map_map]
    dsimp only
    congr 1
    -- The counter does not wrap around before the last pick.
    cases n with
    | zero => rfl
    | succ n =>
      have hnext : (rrCounter + 1).toNat = rrCounter.toNat + 1 := by
        rw [UInt64.toNat_add]
        exact Nat.mod_eq_of_lt (by simp; omega)
      rw [ih (by omega)]
      apply map_congr_left
      intro i _
      simp [hnext, Nat.add_assoc, Nat.add_comm 1]

-- In a round, whatever the first slot is, each index comes once.
theorem count_round {indices : List Nat} (hnodup : indices.Nodup) (start : Nat)
    : ((range indices.length).map fun j => indices[(start + j) % indices.length]?).count pick
        = if pick.any (· ∈ indices) then 1 else 0 := by
  have hround : ((range indices.length).map fun j => indices[(start + j) % indices.length]?)
      = (indices.rotate start).map some := by
    apply ext_getElem
    . simp
    . intro j hj _
      rw [length_map, length_range] at hj
      simp [getElem_rotate, Nat.add_comm start]
  rw [hround]
  cases pick with
  | none => simp [count_eq_zero]
  | some i =>
    rw [count_map_of_injective _ _ (Option.some_injective _),
      (rotate_perm indices start).count_eq]
    simpa using hnodup.count

theorem count_rounds {indices : List Nat} (hnodup : indices.Nodup) (start rounds : Nat)
    (pick : Option Nat)
    : ((range (rounds * indices.length)).map fun j =>
        indices[(start + j) % indices.length]?).count pick
        = if pick.any (· ∈ indices) then rounds else 0 := by
  induction rounds with
  | zero => simp
  | succ rounds ih =>
    have hshift : ∀ j, (start + (rounds * indices.length + j)) % indices.length
        = (start + j) % indices.length := by
      intro j
      rw [Nat.add_left_comm, Nat.mul_comm, Nat.mul_add_mod]
    rw [Nat.succ_mul, range_add, map_append, count_append, ih, map_map]
    simp only [Function.comp_def, hshift]
    rw [count_round hnodup]
    split
    . rfl
    . rfl

theorem round_robin_fair (hstrategy : b.strategy = .roundRobin) (halive : b.aliveCount states ≠ 0)
    (adaptive : Option Nat) (rrCounter : UInt64) (rounds : Nat)
    (hcounter : rrCounter.toNat + rounds * b.aliveCount states ≤ 2 ^ 64) (pick : Option Nat)
    : (b.picks states adaptive rrCounter (rounds * b.aliveCount states)).count pick
        = if pick.any (b.members[·]?.any (isAlive states)) then rounds else 0 := by
  have hcount := count_rounds (nodup_aliveFrom states 0 b.members) rrCounter.toNat rounds pick
  simp only [length_aliveFrom, mem_aliveFrom, Bool.decide_eq_true] at hcount
  rw [picks_eq hstrategy halive hcounter]
  exact hcount

def three : Balancer :=
  ⟨"lb", [⟨"a", "a"⟩, ⟨"b", "b"⟩, ⟨"c", "c"⟩], .roundRobin, .default, none⟩

def deadB (tag : String) : Option OutboundState :=
  if tag = "b" then some ⟨false, 0⟩ else none

theorem round_robin_fair_three : (three.picks deadB none 0 (5 * 2)).count (some 2) = 5 :=
  round_robin_fair (b := three) rfl (by decide) none 0 5 (by decide) (some 2)

theorem pick_finds_member_iff (hstrategy : b.strategy = .roundRobin) (hmembers : b.members ≠ [])
    (adaptive : Option Nat) (rrCounter : UInt64)
    : (b.pickMemberIndex states states' adaptive rrCounter).fst.isSome
        ↔ (b.aliveCount states ≠ 0 →
          rrCounter.toNat % b.aliveCount states < b.aliveCount states') := by
  by_cases halive : b.aliveCount states = 0
  . simp [pickMemberIndex, hstrategy, halive, firstMemberIndex, hmembers]
  . simp [pickMemberIndex, hstrategy, halive, nthAliveIndex_eq 0 (Nat.zero_le _),
      length_aliveFrom]

-- The first member is alive all the time, but the third one is not when it is looked for.
theorem pick_finds_no_member
    : ¬ (three.pickMemberIndex deadB (fun tag => if tag = "a" then none else some ⟨false, 0⟩) none
      1).fst.isSome := by
  rw [pick_finds_member_iff rfl (by decide)]
  decide

variable (states) in
def IsFastest (seen : List BalancerMember) : Option (UInt64 × Nat) → Prop
  | none => ∀ m ∈ seen, isAlive states m = false
  | some (ms, i) => ∃ pre member post, seen = pre ++ member :: post ∧ i = pre.length
    ∧ isAlive states member ∧ ms = latency states member
    ∧ (∀ m ∈ pre, isAlive states m → ms < latency states m)
    ∧ ∀ m ∈ post, isAlive states m → ms ≤ latency states m

theorem IsFastest.step (h : IsFastest states seen best) (m : BalancerMember)
    : IsFastest states (seen ++ [m]) (faster states best (m, seen.length)) := by
  dsimp only [faster]
  split
  . next hfaster =>
    rw [Bool.and_eq_true] at hfaster
    refine ⟨seen, m, [], rfl, rfl, hfaster.left, rfl, fun q hq halive => ?_, by simp⟩
    match best with
    | none => simp [h q hq] at halive
    | some (ms, i) =>
      rcases h with ⟨pre, member, post, rfl, rfl, -, rfl, hpre, hpost⟩
      have hlt : latency states m < latency states member := by simpa using hfaster.right
      rcases mem_append.mp hq with hq | hq
      . exact UInt64.lt_trans hlt (hpre q hq halive)
      rcases mem_cons.mp hq with rfl | hq
      . exact hlt
      . exact UInt64.lt_of_lt_of_le hlt (hpost q hq halive)
  . next hnot =>
    match best with
    | none => exact forall_mem_append.mpr ⟨h, by simpa using hnot⟩
    | some (ms, i) =>
      rcases h with ⟨pre, member, post, rfl, rfl, hmember, rfl, hpre, hpost⟩
      exact ⟨pre, member, post ++ [m], by simp, rfl, hmember, rfl, hpre,
        forall_mem_append.mpr ⟨hpost, by simpa using hnot⟩⟩

theorem pick_latency_least (b : Balancer)
    : (b.aliveCount states = 0 ∧ b.pickLatencyIndex states = b.firstMemberIndex)
      ∨ ∃ pre member post, b.members = pre ++ member :: post
        ∧ b.pickLatencyIndex states = some pre.length ∧ isAlive states member
        ∧ (∀ m ∈ pre, isAlive states m → latency states member < latency states m)
        ∧ ∀ m ∈ post, isAlive states m → latency states member ≤ latency states m := by
  have hfold (rest : List BalancerMember) : ∀ seen best, IsFastest states seen best →
      IsFastest states (seen ++ rest) ((rest.zipIdx seen.length).foldl (faster states) best) := by
    induction rest with
    | nil => simp
    | cons m rest ih =>
      intro seen best h
      simpa using ih (seen ++ [m]) _ (h.step m)
  have hfastest := hfold b.members [] none (by simp [IsFastest])
  unfold pickLatencyIndex
  rw [nil_append, length_nil] at hfastest
  match hbest : b.members.zipIdx.foldl (faster states) none with
  | none =>
    rw [hbest] at hfastest
    exact Or.inl ⟨countP_eq_zero.mpr fun m hm => by simp [hfastest m hm], rfl⟩
  | some (ms, i) =>
    rw [hbest] at hfastest
    rcases hfastest with ⟨pre, member, post, hmembers, rfl, hmember, rfl, hpre, hpost⟩
    exact Or.inr ⟨pre, member, post, hmembers, rfl, hmember, hpre, hpost⟩

end Balancer

end Blackwire
