import Mathlib.Algebra.Group.Nat.Defs
import Blackwire.Lib.Machine
import Blackwire.Lib.Table
import Blackwire.Lib.Pool

/-!
This module contains the limit on the connections of one user and its verification. A call of
`try_acquire` and the drop of its permit are taken apart into their atomic steps, which any number
of calls take in any order.
-/

namespace Blackwire.UserLimits

def usizeMax : UInt64 := UInt64.ofNat (2 ^ 64 - 1)

-- The limiter is there exactly if the counter is.
structure UserConnectionPermit where
  user : String
  counter : Option Nat
deriving DecidableEq

inductive Call where
  | capped (user : String) (max : UInt64)
  | cloned (user : String) (max : UInt64) (counter : Nat)
  | past (user : String) (counter : Nat)
  | holding (permit : UserConnectionPermit)
  | released (user : String) (counter : Nat)
  | done
deriving DecidableEq

namespace Call

def holds (user : String) : Call → Bool
  | holding permit => permit.user = user
  | _ => false

def counts (counter : Nat) : Call → Bool
  | past _ c => c = counter
  | holding permit => permit.counter = some counter
  | _ => false

def isOver (user : String) : Call → Bool
  | past u _ => u = user
  | _ => false

def awaitsAdd (counter : Nat) : Call → Bool
  | cloned _ _ c => c = counter
  | _ => false

end Call

structure Grant where
  user : String
  cap : UInt64
  live : Nat
deriving DecidableEq

structure UserConnectionLimiter where
  maxConnectionsPerUser : UInt64
  counters : Table String Nat
  active : Nat → UInt64
  allocated : Nat
  calls : List Call
  grants : List Grant

inductive Event where
  | tryAcquire (user : Option String)
  | setMaxConnectionsPerUser (n : UInt64)
  | advance (i : Nat)

namespace UserConnectionLimiter

def new (n : UInt64) : UserConnectionLimiter where
  maxConnectionsPerUser := max n 1
  counters := Table.empty
  active := fun _ => 0
  allocated := 0
  calls := []
  grants := []

variable (s : UserConnectionLimiter)

def live (user : String) : Nat :=
  s.calls.countP (·.holds user)

def grant (user : String) (cap : UInt64) : UserConnectionLimiter :=
  { s with grants := s.grants ++ [⟨user, cap, s.live user⟩] }

def tryAcquire (user : Option String) : UserConnectionLimiter :=
  match user with
  | none => s
  | some user =>
    let max := s.maxConnectionsPerUser
    if max = usizeMax then
      { s with calls := s.calls ++ [Call.holding ⟨user, none⟩] }.grant user max
    else
      { s with calls := s.calls ++ [.capped user max] }

section

variable (i : Nat) (user : String)

def cloneCounter (max : UInt64) : UserConnectionLimiter :=
  match s.counters user with
  | some counter => { s with calls := s.calls.set i (.cloned user max counter) }
  | none =>
    { s with
      counters := s.counters.insert user s.allocated
      active := fun c => if c = s.allocated then 0 else s.active c
      allocated := s.allocated + 1
      calls := s.calls.set i (.cloned user max s.allocated) }

def store (counter : Nat) (n : UInt64) : UserConnectionLimiter :=
  { s with active := fun c => if c = counter then n else s.active c }

def fetchAdd (max : UInt64) (counter : Nat) : UserConnectionLimiter :=
  let active := s.active counter + 1
  if active > max then
    { s.store counter active with calls := s.calls.set i (.past user counter) }
  else
    { s.store counter active with
      calls := s.calls.set i (Call.holding ⟨user, some counter⟩) }.grant user max

def fetchSub (i : Nat) (counter : Nat) : UserConnectionLimiter :=
  { s.store counter (s.active counter - 1) with calls := s.calls.set i .done }

def drop (i : Nat) (permit : UserConnectionPermit) : UserConnectionLimiter :=
  match permit.counter with
  | none => { s with calls := s.calls.set i .done }
  | some counter =>
    let previous := s.active counter
    if previous ≤ 1 then
      { s.store counter (previous - 1) with calls := s.calls.set i (.released permit.user counter) }
    else
      s.fetchSub i counter

def removeIf (counter : Nat) : UserConnectionLimiter :=
  if s.counters user = some counter ∧ s.active counter = 0 then
    { s with counters := s.counters.erase user, calls := s.calls.set i .done }
  else
    { s with calls := s.calls.set i .done }

end

def advance (i : Nat) : UserConnectionLimiter :=
  match s.calls[i]? with
  | some (.capped user max) => s.cloneCounter i user max
  | some (.cloned user max counter) => s.fetchAdd i user max counter
  | some (.past _ counter) => s.fetchSub i counter
  | some (.holding permit) => s.drop i permit
  | some (.released user counter) => s.removeIf i user counter
  | some .done => s
  | none => s

def step (e : Event) : UserConnectionLimiter :=
  match e with
  | .tryAcquire user => s.tryAcquire user
  | .setMaxConnectionsPerUser n => { s with maxConnectionsPerUser := max n 1 }
  | .advance i => s.advance i

end UserConnectionLimiter

open Machine

def Call.counter : Call → Option (String × Nat)
  | cloned user _ counter => some (user, counter)
  | past user counter => some (user, counter)
  | holding permit => permit.counter.map (permit.user, ·)
  | _ => none

theorem Call.counter_of_counts (call : Call) {counter : Nat} (h : call.counts counter = true)
    : ∃ user, call.counter = some (user, counter) ∧ (call.holds user ∨ call.isOver user) := by
  cases call with
  | past user c =>
    simp only [counts, decide_eq_true_eq] at h
    exact ⟨user, by rw [← h]; rfl, Or.inr (by simp [isOver])⟩
  | holding permit =>
    simp only [counts, decide_eq_true_eq] at h
    exact ⟨permit.user, by simp [Call.counter, h], Or.inl (by simp [holds])⟩
  | capped user max => cases h
  | cloned user max c => cases h
  | released user c => cases h
  | done => cases h

theorem Call.counts_of_counter_none {call : Call} (counter : Nat) (h : call.counter = none)
    : call.counts counter = false := by
  rw [Bool.eq_false_iff]
  intro hcounts
  rcases call.counter_of_counts hcounts with ⟨user, hcounter, _⟩
  rw [h] at hcounter
  cases hcounter

theorem Call.counts_unique {call : Call} (counter counter' : Nat) (h : call.counts counter = true)
    (hne : counter' ≠ counter)
    : call.counts counter' = false := by
  rw [Bool.eq_false_iff]
  intro h'
  rcases call.counter_of_counts h with ⟨user, hcounter, _⟩
  rcases call.counter_of_counts h' with ⟨user', hcounter', _⟩
  rw [hcounter] at hcounter'
  cases hcounter'
  exact hne rfl

theorem toNat_usizeMax : usizeMax.toNat = 2 ^ 64 - 1 := by
  rfl

theorem toNat_add_one (h : n ≠ usizeMax) : (n + 1).toNat = n.toNat + 1 := by
  have hne : n.toNat ≠ usizeMax.toNat := fun heq => h (UInt64.toNat_inj.mp heq)
  have hlt := n.toNat_lt
  rw [toNat_usizeMax] at hne
  exact Nat.mod_eq_of_lt (by simp; omega)

theorem toNat_sub_one {n : UInt64} (h : 0 < n.toNat) : (n - 1).toNat = n.toNat - 1 := by
  apply UInt64.toNat_sub_of_le
  exact h

namespace UserConnectionLimiter

/--
A call must not add one to a counter that is full, or while the user has a permit from the time of
an unlimited cap. No entry may be removed while a call has its counter and has not added one yet.
-/
def Careful (s : UserConnectionLimiter) : Call → Prop
  | .cloned user _ counter =>
    s.active counter ≠ usizeMax ∧ ∀ call ∈ s.calls, call ≠ .holding ⟨user, none⟩
  | .released user counter =>
    s.counters user = some counter → s.active counter = 0 →
      ∀ call ∈ s.calls, call.awaitsAdd counter = false
  | _ => True

instance (s : UserConnectionLimiter) (call : Call) : Decidable (s.Careful call) :=
  match call with
  | .cloned _ _ _ => inferInstanceAs (Decidable (_ ∧ _))
  | .released _ _ => inferInstanceAs (Decidable (_ → _ → _))
  | .capped _ _ | .past _ _ | .holding _ | .done => inferInstanceAs (Decidable True)

def Within (s : UserConnectionLimiter) : Event → Prop
  | .tryAcquire user =>
    s.maxConnectionsPerUser = usizeMax → ∀ u ∈ user, s.live u < usizeMax.toNat
  | .setMaxConnectionsPerUser _ => True
  | .advance i => ∀ call ∈ s.calls[i]?, s.Careful call

instance (s : UserConnectionLimiter) (e : Event) : Decidable (s.Within e) :=
  match e with
  | .tryAcquire _ => inferInstanceAs (Decidable (_ → ∀ _ ∈ _, _))
  | .setMaxConnectionsPerUser _ => inferInstanceAs (Decidable True)
  | .advance _ => inferInstanceAs (Decidable (∀ _ ∈ _, _))

structure Inv (s : UserConnectionLimiter) : Prop where
  current : ∀ call ∈ s.calls, ∀ user counter,
    call.counter = some (user, counter) → s.counters user = some counter
  counted : ∀ counter, (s.active counter).toNat = s.calls.countP (·.counts counter)
  owner : ∀ user user' counter,
    s.counters user = some counter → s.counters user' = some counter → user = user'
  fresh : ∀ user counter, s.counters user = some counter → counter < s.allocated
  granted : ∀ g ∈ s.grants, g.live ≤ g.cap.toNat

theorem inv_new : (new n).Inv where
  current := by simp [new]
  counted := by simp [new]
  owner := by simp [new, Table.empty]
  fresh := by simp [new, Table.empty]
  granted := by simp [new]

variable {s : UserConnectionLimiter}

section

variable (h : s.Inv)
include h

theorem Inv.grant (user : String) (cap : UInt64) (hlive : s.live user ≤ cap.toNat)
    : (s.grant user cap).Inv where
  current := h.current
  counted := h.counted
  owner := h.owner
  fresh := h.fresh
  granted := Pool.forall_mem_concat _ h.granted hlive

theorem Inv.not_counts_allocated : ∀ call ∈ s.calls, ¬call.counts s.allocated := by
  intro call hcall hcounts
  rcases call.counter_of_counts hcounts with ⟨user, hcounter, _⟩
  have := h.fresh user _ (h.current call hcall user _ hcounter)
  omega

theorem Inv.concat {new : Call} (hnew : new.counter = none)
    : Inv { s with calls := s.calls ++ [new] } where
  current := by
    apply Pool.forall_mem_concat new h.current
    intro user counter hcounter
    rw [hnew] at hcounter
    cases hcounter
  counted := by
    intro counter
    rw [Pool.countP_concat, new.counts_of_counter_none counter hnew]
    exact h.counted counter
  owner := h.owner
  fresh := h.fresh
  granted := h.granted

theorem inv_tryAcquire {user : Option String} (hw : s.Within (.tryAcquire user))
    : (s.tryAcquire user).Inv := by
  unfold tryAcquire
  split
  . exact h
  . next user =>
    dsimp only
    split
    . next hmax =>
      apply Inv.grant
      . exact h.concat rfl
      . have := hw hmax user rfl
        rw [hmax]
        simp only [live, Pool.countP_concat]
        rw [show (Call.holding ⟨user, none⟩).holds user = true by simp [Call.holds]]
        exact this
    . exact h.concat rfl

section

variable {i : Nat} {old new : Call} (hold : s.calls[i]? = some old)
  (hcounter : ∀ user counter, new.counter = some (user, counter) → s.counters user = some counter)
include hold hcounter

theorem Inv.set (hcounts : ∀ counter, old.counts counter = new.counts counter)
    : Inv { s with calls := s.calls.set i new } where
  current := Pool.forall_mem_set s.calls i new h.current hcounter
  counted := by
    intro counter
    have hsum := Pool.countP_set_add (q := (·.counts counter)) s.calls i old new hold
    rw [hcounts counter] at hsum
    rw [h.counted counter]
    exact (Nat.add_right_cancel hsum).symm
  owner := h.owner
  fresh := h.fresh
  granted := h.granted

theorem Inv.store_set (hn : n.toNat + (old.counts counter).toNat
      = (s.active counter).toNat + (new.counts counter).toNat)
    (hcounts : ∀ c, c ≠ counter → old.counts c = new.counts c)
    : Inv { s.store counter n with calls := s.calls.set i new } where
  current := Pool.forall_mem_set s.calls i new h.current hcounter
  counted := by
    intro c
    have hsum := Pool.countP_set_add (q := (·.counts c)) s.calls i old new hold
    by_cases hc : c = counter
    . simp only [store, if_pos hc]
      rw [hc] at hsum ⊢
      rw [h.counted counter] at hn
      omega
    . simp only [store, if_neg hc]
      rw [hcounts c hc] at hsum
      rw [h.counted c]
      exact (Nat.add_right_cancel hsum).symm
  owner := h.owner
  fresh := h.fresh
  granted := h.granted

end

theorem Inv.insert (hnone : s.counters user = none)
    : Inv { s with
        counters := s.counters.insert user s.allocated
        active := fun c => if c = s.allocated then 0 else s.active c
        allocated := s.allocated + 1 } where
  current := by
    intro call hcall u counter hcounter
    have hcurrent := h.current call hcall u counter hcounter
    dsimp only
    rw [Table.insert_of_ne]
    . exact hcurrent
    . intro hu
      rw [hu, hnone] at hcurrent
      cases hcurrent
  counted := by
    intro c
    dsimp only
    split
    . next hc =>
      rw [hc]
      exact (List.countP_eq_zero.mpr h.not_counts_allocated).symm
    . exact h.counted c
  owner := by
    intro u u' counter hu hu'
    rcases Table.insert_eq_some hu with ⟨hu, hc⟩ | hu
    . rcases Table.insert_eq_some hu' with ⟨hu', hc'⟩ | hu'
      . rw [hu, hu']
      . have := h.fresh u' counter hu'
        omega
    . rcases Table.insert_eq_some hu' with ⟨hu', hc'⟩ | hu'
      . have := h.fresh u counter hu
        omega
      . exact h.owner u u' counter hu hu'
  fresh := by
    intro u counter hu
    rcases Table.insert_eq_some hu with ⟨hu, hc⟩ | hu
    . rw [hc]
      exact Nat.lt_succ_self s.allocated
    . exact Nat.lt_succ_of_lt (h.fresh u counter hu)
  granted := h.granted

theorem Inv.erase (hcalls : ∀ call ∈ s.calls, ∀ counter, call.counter ≠ some (user, counter))
    : Inv { s with counters := s.counters.erase user } where
  current := by
    intro call hcall u counter hcounter
    apply Table.erase_eq_some.mpr
    constructor
    . intro hu
      rw [hu] at hcounter
      exact hcalls call hcall counter hcounter
    . exact h.current call hcall u counter hcounter
  counted := h.counted
  owner := by
    intro u u' counter hu hu'
    apply h.owner u u' counter
    . exact (Table.erase_eq_some.mp hu).right
    . exact (Table.erase_eq_some.mp hu').right
  fresh := by
    intro u counter hu
    exact h.fresh u counter (Table.erase_eq_some.mp hu).right
  granted := h.granted

theorem inv_cloneCounter {max : UInt64} (hold : s.calls[i]? = some (.capped user max))
    : (s.cloneCounter i user max).Inv := by
  unfold cloneCounter
  split
  . next counter hsome =>
    apply h.set hold
    . intro u c hc
      cases hc
      exact hsome
    . intro c
      rfl
  . next hnone =>
    apply (h.insert hnone).set hold
    . intro u c hc
      cases hc
      exact Table.insert_self
    . intro c
      rfl

theorem Inv.add (i : Nat) (max : UInt64) (new : Call)
    (hold : s.calls[i]? = some (.cloned user max counter)) (hfull : s.active counter ≠ usizeMax)
    (hcounter : new.counter = some (user, counter)) (hcounts : new.counts counter = true)
    : Inv { s.store counter (s.active counter + 1) with calls := s.calls.set i new } := by
  apply h.store_set hold
  . intro u c hc
    rw [hcounter] at hc
    cases hc
    exact h.current _ (List.mem_of_getElem? hold) user counter rfl
  . rw [hcounts, toNat_add_one hfull]
    rfl
  . intro c hc
    rw [new.counts_unique counter c hcounts hc]
    rfl

theorem live_le_active (hcounter : s.counters user = some counter)
    (hcalls : ∀ call ∈ s.calls, call ≠ .holding ⟨user, none⟩)
    : s.live user ≤ (s.active counter).toNat := by
  rw [h.counted counter]
  apply List.countP_mono_left
  intro call hcall hholds
  cases call with
  | holding permit =>
    rcases permit with ⟨u, c⟩
    simp only [Call.holds, decide_eq_true_eq] at hholds
    subst hholds
    cases c with
    | none => exact absurd rfl (hcalls _ hcall)
    | some c =>
      have hcurrent := h.current _ hcall u c rfl
      rw [hcounter] at hcurrent
      cases hcurrent
      simp [Call.counts]
  | capped u max => cases hholds
  | cloned u max c => cases hholds
  | past u c => cases hholds
  | released u c => cases hholds
  | done => cases hholds

theorem inv_fetchAdd {max : UInt64}
    (hold : s.calls[i]? = some (.cloned user max counter))
    (hcareful : s.Careful (.cloned user max counter))
    : (s.fetchAdd i user max counter).Inv := by
  have hadd := fun new => h.add i max new hold hcareful.left
  unfold fetchAdd
  dsimp only
  split
  . apply hadd
    . rfl
    . simp [Call.counts]
  . next hle =>
    have hinv := hadd (.holding ⟨user, some counter⟩) rfl (by simp [Call.counts])
    apply hinv.grant
    have hlive := live_le_active hinv
      (h.current _ (List.mem_of_getElem? hold) user counter rfl)
      (Pool.forall_mem_set s.calls i _ hcareful.right (by simp))
    simp only [store] at hlive
    rw [gt_iff_lt, UInt64.not_lt, UInt64.le_iff_toNat_le] at hle
    exact Nat.le_trans hlive hle

theorem Inv.sub (i counter : Nat) (old new : Call) (hold : s.calls[i]? = some old)
    (hcounts : old.counts counter = true) (hnew : new.counter = none)
    : Inv { s.store counter (s.active counter - 1) with calls := s.calls.set i new } := by
  apply h.store_set hold
  . intro u c hc
    rw [hnew] at hc
    cases hc
  . have hpos : 0 < (s.active counter).toNat := by
      rw [h.counted counter]
      exact List.countP_pos_iff.mpr ⟨old, List.mem_of_getElem? hold, hcounts⟩
    rw [hcounts, new.counts_of_counter_none counter hnew, toNat_sub_one hpos]
    exact Nat.sub_add_cancel hpos
  . intro c hc
    rw [old.counts_unique counter c hcounts hc, new.counts_of_counter_none c hnew]

theorem inv_drop (hold : s.calls[i]? = some (.holding permit))
    : (s.drop i permit).Inv := by
  unfold drop
  split
  . next hnone =>
    apply h.set hold
    . intro u c hc
      cases hc
    . intro c
      simp [Call.counts, hnone]
  . next counter hsome =>
    have hsub := fun new => h.sub i counter _ new hold (by simp [Call.counts, hsome])
    dsimp only
    split
    . exact hsub _ rfl
    . exact hsub _ rfl

theorem inv_removeIf (hold : s.calls[i]? = some (.released user counter))
    (hcareful : s.Careful (.released user counter))
    : (s.removeIf i user counter).Inv := by
  have hset : Inv { s with calls := s.calls.set i .done } := by
    apply h.set hold
    . intro u c hc
      cases hc
    . intro c
      rfl
  unfold removeIf
  split
  . next hif =>
    apply hset.erase
    apply Pool.forall_mem_set
    . intro call hcall c hc
      have hcurrent := h.current call hcall user c hc
      rw [hif.left] at hcurrent
      cases hcurrent
      -- The counter is at zero, so that no call counts, and no call is about to.
      have hawaits := hcareful hif.left hif.right call hcall
      have hzero := h.counted counter
      rw [hif.right] at hzero
      have hcounts := List.countP_eq_zero.mp hzero.symm call hcall
      cases call with
      | cloned u max c' => cases hc; simp [Call.awaitsAdd] at hawaits
      | past u c' => cases hc; simp [Call.counts] at hcounts
      | holding permit =>
        simp only [Call.counter, Option.map_eq_some_iff, Prod.mk.injEq] at hc
        rcases hc with ⟨c', hc', -, heq⟩
        simp [Call.counts, hc', heq] at hcounts
      | capped u max => cases hc
      | released u c' => cases hc
      | done => cases hc
    . intro c hc
      cases hc
  . exact hset

theorem inv_advance (hw : s.Within (.advance i)) : (s.advance i).Inv := by
  unfold advance
  split
  . next user max hold => exact inv_cloneCounter h hold
  . next user max counter hold => exact inv_fetchAdd h hold (hw _ hold)
  . next user counter hold =>
    exact h.sub i counter _ _ hold (by simp [Call.counts]) rfl
  . next permit hold => exact inv_drop h hold
  . next user counter hold => exact inv_removeIf h hold (hw _ hold)
  . exact h
  . exact h

end

theorem inv_step (s : UserConnectionLimiter) (e : Event) (h : s.Inv) (hw : s.Within e)
    : (s.step e).Inv := by
  cases e with
  | tryAcquire user => exact inv_tryAcquire h hw
  | setMaxConnectionsPerUser n =>
    exact ⟨h.current, h.counted, h.owner, h.fresh, h.granted⟩
  | advance i => exact inv_advance h hw

theorem Inv.active_eq_zero (h : s.Inv) {user : String} (hlive : s.live user = 0)
    (hover : ∀ call ∈ s.calls, call.isOver user = false) (counter : Nat)
    (hcounter : s.counters user = some counter)
    : s.active counter = 0 := by
  rw [← UInt64.toNat_inj, h.counted counter]
  apply List.countP_eq_zero.mpr
  intro call hcall hcounts
  rcases call.counter_of_counts hcounts with ⟨u, hu, hholds⟩
  have heq := h.owner u user counter (h.current call hcall u counter hu) hcounter
  subst heq
  rcases hholds with hholds | hisOver
  . exact List.countP_eq_zero.mp hlive call hcall hholds
  . rw [hover call hcall] at hisOver
    cases hisOver

theorem connection_limit (n : UInt64) (s : UserConnectionLimiter) (hs : Reach step Within (new n) s)
    : (∀ g ∈ s.grants, g.live ≤ g.cap.toNat)
      ∧ ∀ user, s.live user = 0 → (∀ call ∈ s.calls, call.isOver user = false) →
        ∀ counter, s.counters user = some counter → s.active counter = 0 := by
  have hinv : s.Inv := Reach.invariant Inv _ s inv_new inv_step hs
  exact ⟨hinv.granted, fun user => hinv.active_eq_zero⟩

def after (n : UInt64) (events : List Event) : UserConnectionLimiter :=
  events.foldl step (new n)

def twoPermits : List Event :=
  [.tryAcquire (some "alice"), .advance 0, .advance 0, .tryAcquire (some "alice"), .advance 1,
    .advance 1, .advance 1, .advance 0, .advance 0, .setMaxConnectionsPerUser 2,
    .tryAcquire (some "alice"), .advance 2, .advance 2, .tryAcquire (some "alice"), .advance 3,
    .advance 3]

theorem connection_limit_two_permits
    : (after 1 twoPermits).grants = [⟨"alice", 1, 1⟩, ⟨"alice", 2, 1⟩, ⟨"alice", 2, 2⟩]
      ∧ (∀ g ∈ (after 1 twoPermits).grants, g.live ≤ g.cap.toNat)
      ∧ ∀ user, (after 1 twoPermits).live user = 0 →
        (∀ call ∈ (after 1 twoPermits).calls, call.isOver user = false) →
        ∀ counter, (after 1 twoPermits).counters user = some counter →
          (after 1 twoPermits).active counter = 0 := by
  constructor
  . rfl
  . apply connection_limit 1
    apply Reach.foldl
    . exact Reach.start
    . decide +kernel

def detachedCounter : List Event :=
  [.tryAcquire (some "alice"), .advance 0, .advance 0, .tryAcquire (some "alice"), .advance 1,
    .advance 0, .advance 0, .advance 1, .tryAcquire (some "alice"), .advance 2, .advance 2]

-- The first permit is from the time of the unlimited cap.
def uncountedPermit : List Event :=
  [.tryAcquire (some "alice"), .setMaxConnectionsPerUser 1, .tryAcquire (some "alice"), .advance 1,
    .advance 1]

theorem connection_limit_exceeded
    : (∃ g ∈ (after 1 detachedCounter).grants, g.cap.toNat < g.live)
      ∧ ∃ g ∈ (after usizeMax uncountedPermit).grants, g.cap.toNat < g.live := by
  constructor
  . exact ⟨⟨"alice", 1, 2⟩, by decide +kernel⟩
  . exact ⟨⟨"alice", 1, 2⟩, by decide +kernel⟩

end UserConnectionLimiter
end Blackwire.UserLimits
