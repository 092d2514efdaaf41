import Blackwire.Lib.Machine
import Blackwire.Cli.RuntimeCounters
import Mathlib.Data.List.Pairwise

/-!
This module contains the traffic totals of the database and the process that writes its counters
there from time to time, with their verification.
-/

namespace Blackwire.Store

open RuntimeStats Cli

/--
The users of the active revision. E-mails are compared after `fold`, as the collation of the column
does it, and the keys of the table make e-mails and identifiers unique.
-/
structure Users (fold : String → String) where
  rows : List (String × Int)
  emails_unique : rows.Pairwise fun a b => fold a.fst ≠ fold b.fst
  ids_unique : rows.Pairwise fun a b => a.snd ≠ b.snd

def Users.userId {fold : String → String} (users : Users fold) (email : String) : Option Int :=
  (users.rows.find? fun row => fold row.fst = fold email).map Prod.snd

structure TrafficRow where
  bytes : Tally
  lastRuntime : Tally

abbrev UserTraffic := Int → Option TrafficRow

section

variable (table : UserTraffic) (userId : Int) (dir : Dir)

def UserTraffic.bytesAt : Nat :=
  match table userId with
  | none => 0
  | some row => row.bytes dir

def UserTraffic.lastAt : Nat :=
  match table userId with
  | none => 0
  | some row => row.lastRuntime dir

end

namespace TrafficRow

def insert (values : Tally) : TrafficRow where
  bytes := values
  lastRuntime := values

variable (row : TrafficRow) (values : Tally)

def delta (dir : Dir) : Nat :=
  if values dir ≥ row.lastRuntime dir then values dir - row.lastRuntime dir else values dir

-- The columns are `BIGINT UNSIGNED`: a sum that is out of range fails the statement.
def update : Option TrafficRow :=
  if ∀ dir, row.bytes dir + row.delta values dir < 2 ^ 64 then
    some ⟨fun dir => row.bytes dir + row.delta values dir, values⟩
  else
    none

end TrafficRow

-- `INSERT … ON DUPLICATE KEY UPDATE` of `persist_runtime_counters`.
def upsertTraffic (table : UserTraffic) (userId : Int) (values : Tally) : Option UserTraffic := do
  let row ← match table userId with
    | none => some (TrafficRow.insert values)
    | some row => row.update values
  return Function.update table userId (some row)

def persistUser {fold : String → String} (users : Users fold) (tallies : Tallies)
    (table : UserTraffic) (email : String) : Option UserTraffic :=
  match tallies email, users.userId email with
  | some values, some userId => upsertTraffic table userId values
  | _, _ => some table

def persistRuntimeCounters {fold : String → String} (users : Option (Users fold))
    (tallies : Tallies) (order : List String) (table : UserTraffic) : Option UserTraffic :=
  match users with
  | none => some table
  | some users => order.foldlM (persistUser users tallies) table

def resetUserTraffic (table : UserTraffic) (userId : Int) : UserTraffic :=
  Function.update table userId (some ⟨fun _ => 0, fun _ => 0⟩)

structure Ledger where
  done : Tally
  base : Tally
  prev : Tally

namespace Ledger

def zero : Ledger where
  done := fun _ => 0
  base := fun _ => 0
  prev := fun _ => 0

def counted (l : Ledger) (dir : Dir) : Nat :=
  l.done dir + (l.prev dir - l.base dir)

end Ledger

structure TrafficState where
  counters : Counters
  traffic : UserTraffic
  ledger : String → Ledger

inductive TrafficEvent where
  | countUser (user : String) (dir : Dir) (bytes : Nat)
  | countInbound (tag : String) (dir : Dir) (bytes : Nat)
  | persist (order userOrder : List String) (dbFails : Bool)
  | restart
  | reset (userId : Int)

namespace TrafficState

def init : TrafficState where
  counters := RuntimeStats.empty
  traffic := fun _ => none
  ledger := fun _ => Ledger.zero

def live (s : TrafficState) (user : String) : Tally :=
  fun dir => (max ((s.counters (trafficName "user" user dir)).getD 0) 0).toNat

def step {fold : String → String} (users : Users fold) (s : TrafficState) (e : TrafficEvent)
    : TrafficState :=
  match e with
  | .countUser user dir bytes => { s with counters := count s.counters "user" user dir bytes }
  | .countInbound tag dir bytes => { s with counters := count s.counters "inbound" tag dir bytes }
  | .persist order userOrder dbFails =>
    let tallies := (runtimeCounterSnapshots s.counters order).users
    match dbFails, persistRuntimeCounters (some users) tallies userOrder s.traffic with
    | false, some traffic =>
      { s with
        traffic := traffic
        ledger := fun user => { s.ledger user with prev := s.live user } }
    | _, _ => s
  | .restart =>
    { s with
      counters := RuntimeStats.empty
      ledger := fun user => ⟨(s.ledger user).counted, fun _ => 0, fun _ => 0⟩ }
  | .reset userId =>
    { s with
      traffic := resetUserTraffic s.traffic userId
      ledger := fun user =>
        if users.userId user = some userId then
          { s.ledger user with done := fun _ => 0, base := s.live user }
        else
          s.ledger user }

def Enabled {fold : String → String} (users : Users fold) (s : TrafficState) (e : TrafficEvent)
    : Prop :=
  match e with
  | .countUser user dir bytes =>
    (∃ userId, (user, userId) ∈ users.rows)
      ∧ s.live user dir ≤ (s.step users (.countUser user dir bytes)).live user dir
  | .persist order userOrder _ =>
    (∀ name, name ∈ order ↔ (s.counters name).isSome)
      ∧ userOrder.Nodup
      ∧ ∀ user, user ∈ userOrder
          ↔ ((runtimeCounterSnapshots s.counters order).users user).isSome
  | _ => True

end TrafficState
open Machine
open List hiding count

section Users

theorem Users.userId_of_mem (users : Users fold) {email : String} {userId : Int}
    (h : (email, userId) ∈ users.rows)
    : users.userId email = some userId := by
  have hfind : ∃ row, users.rows.find? (fun row => fold row.fst = fold email) = some row := by
    rw [← Option.isSome_iff_exists, find?_isSome]
    exact ⟨(email, userId), h, by simp⟩
  rcases hfind with ⟨row, hrow⟩
  have hmem := mem_of_find?_eq_some hrow
  have hfold := find?_some hrow
  have heq : row = (email, userId) := by
    by_contra hne
    have : Std.Symm fun a b : String × Int => fold a.fst ≠ fold b.fst := by
      constructor
      intro a b hab
      exact hab.symm
    have hdiff := users.emails_unique.forall hmem h hne
    simp only [decide_eq_true_eq] at hfold
    exact hdiff hfold
  unfold Users.userId
  rw [hrow, heq]
  rfl

theorem Users.email_unique (users : Users fold) {email email' : String} {userId : Int}
    (h : (email, userId) ∈ users.rows) (h' : (email', userId) ∈ users.rows)
    : email = email' := by
  by_contra hne
  have : Std.Symm fun a b : String × Int => a.snd ≠ b.snd := by
    constructor
    intro a b hab
    exact hab.symm
  have hpair : (email, userId) ≠ (email', userId) := by
    simp [hne]
  exact users.ids_unique.forall h h' hpair rfl

end Users

def charge (last values : Nat) : Nat :=
  if values ≥ last then values - last else values

namespace UserTraffic

variable {table table' : UserTraffic} (h : table' userId = table userId) (dir : Dir)

include h

theorem bytesAt_congr : table'.bytesAt userId dir = table.bytesAt userId dir := by
  unfold bytesAt
  rw [h]

theorem lastAt_congr : table'.lastAt userId dir = table.lastAt userId dir := by
  unfold lastAt
  rw [h]

end UserTraffic

theorem upsertTraffic_some {table : UserTraffic} {userId : Int} {values : Tally}
    {table' : UserTraffic} (h : upsertTraffic table userId values = some table')
    : (∀ dir, table'.lastAt userId dir = values dir)
        ∧ (∀ dir, table'.bytesAt userId dir
            = table.bytesAt userId dir + charge (table.lastAt userId dir) (values dir))
        ∧ (∀ other, other ≠ userId → table' other = table other) := by
  unfold upsertTraffic at h
  cases hrow : table userId with
  | none =>
    simp only [hrow, Option.bind_eq_bind, Option.bind_some, Option.pure_def, Option.some.injEq] at h
    rw [← h]
    refine ⟨?_, ?_, ?_⟩
    . intro dir
      simp [UserTraffic.lastAt, TrafficRow.insert]
    . intro dir
      simp [UserTraffic.bytesAt, UserTraffic.lastAt, TrafficRow.insert, hrow, charge]
    . intro other hne
      rw [Function.update_of_ne hne]
  | some row =>
    simp only [hrow, Option.bind_eq_bind, Option.pure_def, Option.bind_eq_some_iff] at h
    rcases h with ⟨row', hupdate, h⟩
    simp only [Option.some.injEq] at h
    unfold TrafficRow.update at hupdate
    split at hupdate
    . simp only [Option.some.injEq] at hupdate
      rw [← h, ← hupdate]
      refine ⟨?_, ?_, ?_⟩
      . intro dir
        simp [UserTraffic.lastAt]
      . intro dir
        simp [UserTraffic.bytesAt, UserTraffic.lastAt, TrafficRow.delta, hrow, charge]
      . intro other hne
        rw [Function.update_of_ne hne]
    . simp at hupdate

section Persist

variable {users : Users fold}

theorem persistUser_frame {email : String} (hne : users.userId email ≠ some userId)
    (h : persistUser users tallies table email = some table')
    : table' userId = table userId := by
  unfold persistUser at h
  split at h
  . next values other _ hother =>
    have hdiff : userId ≠ other := by
      intro heq
      apply hne
      rw [hother, heq]
    exact (upsertTraffic_some h).right.right userId hdiff
  . simp only [Option.some.injEq] at h
    rw [h]

theorem persistUsers_frame {order : List String}
    (hne : ∀ email ∈ order, users.userId email ≠ some userId)
    (h : order.foldlM (persistUser users tallies) table = some table')
    : table' userId = table userId := by
  induction order generalizing table with
  | nil =>
    simp only [foldlM_nil, Option.pure_def, Option.some.injEq] at h
    rw [h]
  | cons email order ih =>
    rw [foldlM_cons, Option.bind_eq_bind, Option.bind_eq_some_iff] at h
    rcases h with ⟨mid, hmid, hrest⟩
    have hfirst := persistUser_frame (hne email (by simp)) hmid
    rw [← hfirst]
    apply ih
    . intro other hother
      apply hne
      exact mem_cons_of_mem _ hother
    . exact hrest

theorem persistUsers_user {order : List String} {user : String} {values : Tally}
    (hid : users.userId user = some userId)
    (hvalues : tallies user = some values) (hmem : user ∈ order) (hnodup : order.Nodup)
    (hother : ∀ email ∈ order, email ≠ user → users.userId email ≠ some userId)
    (h : order.foldlM (persistUser users tallies) table = some table')
    : ∀ dir, table'.lastAt userId dir = values dir
        ∧ table'.bytesAt userId dir
            = table.bytesAt userId dir + charge (table.lastAt userId dir) (values dir) := by
  induction order generalizing table with
  | nil => simp at hmem
  | cons email order ih =>
    rw [foldlM_cons, Option.bind_eq_bind, Option.bind_eq_some_iff] at h
    rcases h with ⟨mid, hmid, hrest⟩
    rw [nodup_cons] at hnodup
    by_cases heq : email = user
    . have hkeep : table' userId = mid userId := by
        apply persistUsers_frame _ hrest
        intro other hmem'
        apply hother other (mem_cons_of_mem _ hmem')
        intro hsame
        apply hnodup.left
        rw [heq, ← hsame]
        exact hmem'
      unfold persistUser at hmid
      rw [heq, hvalues, hid] at hmid
      have hups := upsertTraffic_some hmid
      intro dir
      rw [UserTraffic.lastAt_congr hkeep, UserTraffic.bytesAt_congr hkeep]
      exact ⟨hups.left dir, hups.right.left dir⟩
    . have hkeep := persistUser_frame (hother email (by simp) heq) hmid
      intro dir
      rw [← UserTraffic.bytesAt_congr hkeep, ← UserTraffic.lastAt_congr hkeep]
      apply ih
      . rw [mem_cons] at hmem
        cases hmem with
        | inl h => exact absurd h.symm heq
        | inr h => exact h
      . exact hnodup.right
      . intro other hmem' hne
        exact hother other (mem_cons_of_mem _ hmem') hne
      . exact hrest

end Persist

namespace TrafficState

variable (users : Users fold)

/--
What keeps the total of a user right. No counter name gets lost, a reset only happens while the
counters of the user are zero, and the first counter that a new process writes is below the last
one of the process before, unless that one was zero.
-/
def Tracked (user : String) (userId : Int) (s : TrafficState) (e : TrafficEvent) : Prop :=
  match e with
  | .countUser owner _ _ => Splittable owner
  | .persist _ _ _ =>
    ∀ dir, (s.ledger user).prev dir = 0
      → s.traffic.lastAt userId dir = 0 ∨ s.live user dir < s.traffic.lastAt userId dir
  | .reset other => other = userId → ∀ dir, s.live user dir = 0
  | _ => True

structure Inv (user : String) (userId : Int) (s : TrafficState) : Prop where
  named : ∀ name, (s.counters name).isSome
    → (∃ owner dir, (∃ id, (owner, id) ∈ users.rows) ∧ Splittable owner
          ∧ name = trafficName "user" owner dir)
        ∨ ∃ tag dir, name = trafficName "inbound" tag dir
  base : ∀ dir, (s.ledger user).base dir = 0
  total : ∀ dir, s.traffic.bytesAt userId dir = (s.ledger user).done dir + (s.ledger user).prev dir
  seen : ∀ dir, (s.ledger user).prev dir = s.traffic.lastAt userId dir
    ∨ (s.ledger user).prev dir = 0
  le : ∀ dir, (s.ledger user).prev dir ≤ s.live user dir

theorem inv_init {user : String} {userId : Int} : Inv users user userId init := by
  constructor
  . intro name h
    simp [init, RuntimeStats.empty] at h
  . intro dir
    rfl
  . intro dir
    rfl
  . intro dir
    apply Or.inr
    rfl
  . intro dir
    apply Nat.zero_le

theorem Inv.prev_eq_zero {user : String} {userId : Int} {s : TrafficState}
    (h : Inv users user userId s) {dir : Dir} (hlive : s.live user dir = 0)
    : (s.ledger user).prev dir = 0 := by
  have := h.le dir
  omega

theorem Inv.wellNamed {user : String} {userId : Int} {s : TrafficState}
    (h : Inv users user userId s) {name : String} (hlive : (s.counters name).isSome)
    : WellNamed name := by
  rcases h.named name hlive with ⟨owner, dir, _, hsplit, hname⟩ | ⟨tag, dir, hname⟩
  . exact Or.inl ⟨owner, dir, hsplit, hname⟩
  . exact Or.inr ⟨tag, dir, hname⟩

-- The only e-mail with counters that leads to the row of the user is the user's own.
theorem Inv.userId_ne {user : String} {userId : Int} {s : TrafficState}
    (h : Inv users user userId s) (hmem : (user, userId) ∈ users.rows) {email : String} {dir : Dir}
    (hlive : (s.counters (trafficName "user" email dir)).isSome) (hne : email ≠ user)
    : users.userId email ≠ some userId := by
  rcases h.named _ hlive with ⟨owner, dir', ⟨id, hid⟩, _, hname⟩ | ⟨tag, dir', hname⟩
  . rw [(trafficName_user_injective hname).left] at hne ⊢
    rw [users.userId_of_mem hid]
    intro heq
    simp only [Option.some.injEq] at heq
    rw [heq] at hid
    exact hne (users.email_unique hid hmem)
  . exact absurd hname (trafficName_user_ne_inbound _ _ _ _)

variable (bytes : Nat) {s : TrafficState}

theorem isSome_count {kind : String} {bytes : Nat} {name : String}
    (h : (count c kind owner dir bytes name).isSome)
    : name = trafficName kind owner dir ∨ (c name).isSome := by
  by_cases hname : name = trafficName kind owner dir
  . exact Or.inl hname
  . unfold count increment at h
    rw [Function.update_of_ne hname] at h
    exact Or.inr h

theorem count_of_ne {c : Counters} {kind : String} {bytes : Nat} {name : String}
    (h : name ≠ trafficName kind owner dir)
    : count c kind owner dir bytes name = c name := by
  unfold count increment
  rw [Function.update_of_ne h]

theorem Inv.of_counters (h : Inv users user userId s) (hnamed : ∀ name, (c name).isSome
      → (∃ owner dir, (∃ id, (owner, id) ∈ users.rows) ∧ Splittable owner
            ∧ name = trafficName "user" owner dir)
          ∨ ∃ tag dir, name = trafficName "inbound" tag dir)
    (hlive : ∀ dir, s.live user dir ≤ ({ s with counters := c } : TrafficState).live user dir)
    : Inv users user userId { s with counters := c } := by
  constructor
  . exact hnamed
  . exact h.base
  . exact h.total
  . exact h.seen
  . intro dir
    exact Nat.le_trans (h.le dir) (hlive dir)

theorem inv_countUser {bytes : Nat} (h : Inv users user userId s)
    (henabled : s.Enabled users (.countUser owner dir bytes)) (hsplit : Splittable owner)
    : Inv users user userId (s.step users (.countUser owner dir bytes)) := by
  apply h.of_counters
  . intro name hname
    cases isSome_count hname with
    | inl heq => exact Or.inl ⟨owner, dir, henabled.left, hsplit, heq⟩
    | inr hold => exact h.named name hold
  . intro dir'
    by_cases hname : trafficName "user" user dir' = trafficName "user" owner dir
    . have hsame := trafficName_user_injective hname
      rw [hsame.left, hsame.right]
      exact henabled.right
    . unfold live
      dsimp only
      rw [count_of_ne hname]

theorem inv_countInbound {tag : String} {dir : Dir} {bytes : Nat} (h : Inv users user userId s)
    : Inv users user userId (s.step users (.countInbound tag dir bytes)) := by
  apply h.of_counters
  . intro name hname
    cases isSome_count hname with
    | inl heq => exact Or.inr ⟨tag, dir, heq⟩
    | inr hold => exact h.named name hold
  . intro dir'
    unfold live
    dsimp only
    rw [count_of_ne (trafficName_user_ne_inbound _ _ _ _)]

theorem inv_restart (h : Inv users user userId s)
    : Inv users user userId (s.step users .restart) := by
  constructor
  . intro name hname
    simp [step, RuntimeStats.empty] at hname
  . intro dir
    rfl
  . intro dir
    have htotal := h.total dir
    have hbase := h.base dir
    simp only [step, Ledger.counted]
    omega
  . intro dir
    exact Or.inr rfl
  . intro dir
    apply Nat.zero_le

theorem inv_reset {other : Int}
    (h : Inv users user userId s) (hid : users.userId user = some userId)
    (hzero : other = userId → ∀ dir, s.live user dir = 0)
    : Inv users user userId (s.step users (.reset other)) := by
  by_cases heq : other = userId
  . have hlive := hzero heq
    have hprev : ∀ dir, (s.ledger user).prev dir = 0 := by
      intro dir
      exact h.prev_eq_zero users (hlive dir)
    constructor
    . exact h.named
    . intro dir
      simp [step, hid, heq, hlive dir]
    . intro dir
      simp [step, hid, heq, hprev dir, resetUserTraffic, UserTraffic.bytesAt]
    . intro dir
      apply Or.inr
      simp [step, hid, heq, hprev dir]
    . intro dir
      simp [step, hid, heq, hprev dir]
  . have hrow : (resetUserTraffic s.traffic other) userId = s.traffic userId := by
      unfold resetUserTraffic
      rw [Function.update_of_ne (Ne.symm heq)]
    have hledger : (s.step users (.reset other)).ledger user = s.ledger user := by
      have hne : ¬ userId = other := Ne.symm heq
      simp [step, hid, hne]
    constructor
    . exact h.named
    . rw [hledger]
      exact h.base
    . rw [hledger]
      intro dir
      unfold step
      rw [UserTraffic.bytesAt_congr hrow]
      exact h.total dir
    . rw [hledger]
      intro dir
      unfold step
      rw [UserTraffic.lastAt_congr hrow]
      exact h.seen dir
    . rw [hledger]
      exact h.le

theorem persist_row
    {order userOrder : List String} {traffic : UserTraffic} (h : Inv users user userId s)
    (hmem : (user, userId) ∈ users.rows)
    (henabled : s.Enabled users (.persist order userOrder false))
    (hpersist : persistRuntimeCounters (some users)
      (runtimeCounterSnapshots s.counters order).users userOrder s.traffic = some traffic)
    : (∀ dir, traffic.lastAt userId dir = s.live user dir
        ∧ traffic.bytesAt userId dir
            = s.traffic.bytesAt userId dir
              + charge (s.traffic.lastAt userId dir) (s.live user dir))
        ∨
      (traffic userId = s.traffic userId ∧ ∀ dir, s.live user dir = 0) := by
  rcases henabled with ⟨horder, hnodup, huserOrder⟩
  have hsnap := runtimeCounterSnapshots_users s.counters order horder
    (by
      intro name hname
      exact h.wellNamed users ((horder name).mp hname))
  have hother : ∀ email ∈ userOrder, email ≠ user → users.userId email ≠ some userId := by
    intro email hemail hne
    rw [huserOrder, hsnap] at hemail
    split at hemail
    . next hlive =>
      rcases hlive with ⟨dir, hlive⟩
      exact h.userId_ne users hmem hlive hne
    . simp at hemail
  by_cases hlive : ∃ dir, (s.counters (trafficName "user" user dir)).isSome
  . apply Or.inl
    have hvalues : (runtimeCounterSnapshots s.counters order).users user = some (s.live user) := by
      rw [hsnap, if_pos hlive]
      rfl
    apply persistUsers_user
    . exact users.userId_of_mem hmem
    . exact hvalues
    . rw [huserOrder, hvalues]
      rfl
    . exact hnodup
    . exact hother
    . exact hpersist
  . apply Or.inr
    constructor
    . apply persistUsers_frame _ hpersist
      intro email hemail
      apply hother email hemail
      intro heq
      rw [huserOrder, hsnap, heq, if_neg hlive] at hemail
      simp at hemail
    . intro dir
      have hnone : s.counters (trafficName "user" user dir) = none := by
        rw [← Option.not_isSome_iff_eq_none]
        intro hsome
        exact hlive ⟨dir, hsome⟩
      simp [live, hnone]

theorem inv_persist {order userOrder : List String} {dbFails : Bool} (h : Inv users user userId s)
    (hmem : (user, userId) ∈ users.rows)
    (henabled : s.Enabled users (.persist order userOrder dbFails))
    (htracked : Tracked user userId s (.persist order userOrder dbFails))
    : Inv users user userId (s.step users (.persist order userOrder dbFails)) := by
  unfold step
  dsimp only
  split
  . next traffic hpersist =>
    cases persist_row users h hmem henabled hpersist with
    | inl hrow =>
      constructor
      . exact h.named
      . exact h.base
      . intro dir
        have htotal := h.total dir
        have hseen := h.seen dir
        have hle := h.le dir
        have htrack := htracked dir
        rw [(hrow dir).right]
        unfold charge
        dsimp only
        split
        . omega
        . omega
      . intro dir
        apply Or.inl
        exact (hrow dir).left.symm
      . intro dir
        exact Nat.le_refl _
    | inr hrow =>
      constructor
      . exact h.named
      . exact h.base
      . intro dir
        have htotal := h.total dir
        rw [h.prev_eq_zero users (hrow.right dir)] at htotal
        dsimp only
        rw [UserTraffic.bytesAt_congr hrow.left, hrow.right dir]
        exact htotal
      . intro dir
        apply Or.inr
        exact hrow.right dir
      . intro dir
        exact Nat.le_refl _
  . exact h

theorem inv_step {e : TrafficEvent}
    (h : Inv users user userId s) (hmem : (user, userId) ∈ users.rows)
    (henabled : s.Enabled users e) (htracked : Tracked user userId s e)
    : Inv users user userId (s.step users e) := by
  cases e with
  | countUser owner dir bytes =>
    exact inv_countUser users h henabled htracked
  | countInbound tag dir bytes => exact inv_countInbound users h
  | persist order userOrder dbFails =>
    exact inv_persist users h hmem henabled htracked
  | restart => exact inv_restart users h
  | reset other =>
    exact inv_reset users h (users.userId_of_mem hmem) htracked

theorem stored_eq_counted (user : String) (userId : Int) (hmem : (user, userId) ∈ users.rows)
    (s : TrafficState)
    (h : Reach (step users) (fun s e => s.Enabled users e ∧ Tracked user userId s e) init s)
    : ∀ dir, s.traffic.bytesAt userId dir = (s.ledger user).counted dir := by
  have hinv : Inv users user userId s := by
    apply Reach.invariant (Inv users user userId) init s (inv_init users) _ h
    intro t e ht he
    exact inv_step users ht hmem he.left he.right
  intro dir
  have htotal := hinv.total dir
  have hbase := hinv.base dir
  unfold Ledger.counted
  omega

def oneUser : Users id where
  rows := [("a@b", 7)]
  emails_unique := pairwise_singleton _ _
  ids_unique := pairwise_singleton _ _

def aUplink : String := trafficName "user" "a@b" .uplink

def resetRun : List TrafficEvent :=
  [
    .countUser "a@b" .uplink 100,
    .persist [aUplink] ["a@b"] false,
    .reset 7,
    .countUser "a@b" .uplink 1,
    .persist [aUplink] ["a@b"] false
  ]

def restartRun : List TrafficEvent :=
  [
    .countUser "a@b" .uplink 100,
    .persist [aUplink] ["a@b"] false,
    .restart,
    .countUser "a@b" .uplink 5,
    .persist [aUplink] ["a@b"] false
  ]

theorem isSome_count_aUplink (h : ∀ name, (c name).isSome → name = aUplink) (name : String)
    : (count c "user" "a@b" .uplink bytes name).isSome ↔ name = aUplink := by
  constructor
  . intro hname
    cases isSome_count hname with
    | inl heq => exact heq
    | inr hold => exact h name hold
  . intro heq
    rw [heq]
    simp [count, increment, aUplink]

theorem enabled_persist_aUplink (h : ∀ name, (s.counters name).isSome ↔ name = aUplink)
    : s.Enabled oneUser (.persist [aUplink] ["a@b"] false) := by
  have horder : ∀ name, name ∈ [aUplink] ↔ (s.counters name).isSome := by
    intro name
    rw [h]
    simp
  refine ⟨horder, by simp, ?_⟩
  intro user
  rw [runtimeCounterSnapshots_users s.counters [aUplink] horder]
  . have hlive : (∃ dir, (s.counters (trafficName "user" user dir)).isSome) ↔ user = "a@b" := by
      simp only [h]
      constructor
      . rintro ⟨dir, hname⟩
        exact (trafficName_user_injective hname).left
      . intro heq
        exact ⟨.uplink, by rw [heq]; rfl⟩
    simp only [hlive]
    split
    . next heq => simp [heq]
    . next hne => simp [hne]
  . intro name hname
    rw [mem_singleton] at hname
    exact Or.inl ⟨"a@b", .uplink, by decide, hname⟩

theorem stored_ne_counted_after_reset
    : ∃ s, Reach (step oneUser) (Enabled oneUser) init s
        ∧ s.traffic.bytesAt 7 .uplink = 101
        ∧ (s.ledger "a@b").counted .uplink = 1 := by
  refine ⟨resetRun.foldl (step oneUser) init, ?_, by decide, by decide⟩
  apply Reach.foldl _ _ Reach.start
  have hempty : ∀ name, (init.counters name).isSome → name = aUplink := by
    intro name h
    simp [init, RuntimeStats.empty] at h
  have hfirst := isSome_count_aUplink 100 hempty
  have hsecond := isSome_count_aUplink 1 (fun name => (hfirst name).mp)
  exact ⟨⟨⟨7, by decide⟩, by decide⟩, enabled_persist_aUplink hfirst, trivial,
    ⟨⟨7, by decide⟩, by decide⟩, enabled_persist_aUplink hsecond, trivial⟩

theorem stored_eq_counted_after_restart
    : ∃ s : TrafficState, s.traffic.bytesAt 7 .uplink = 105
        ∧ s.traffic.bytesAt 7 .uplink = (s.ledger "a@b").counted .uplink := by
  refine ⟨restartRun.foldl (step oneUser) init, by decide, ?_⟩
  apply stored_eq_counted oneUser "a@b" 7 (by decide)
  apply Reach.foldl _ _ Reach.start
  have hempty : ∀ name, (RuntimeStats.empty name).isSome → name = aUplink := by
    intro name h
    simp [RuntimeStats.empty] at h
  have hfirst := isSome_count_aUplink 100 hempty
  have hsecond := isSome_count_aUplink 5 hempty
  refine ⟨⟨⟨⟨7, by decide⟩, by decide⟩, ?_⟩, ⟨enabled_persist_aUplink hfirst, ?_⟩,
    ⟨trivial, trivial⟩, ⟨⟨⟨7, by decide⟩, by decide⟩, ?_⟩,
    ⟨enabled_persist_aUplink hsecond, ?_⟩, trivial⟩
  all_goals
    unfold Tracked
    decide

end TrafficState
end Blackwire.Store
