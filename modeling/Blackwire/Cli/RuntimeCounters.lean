import Blackwire.Lib.Text
import Blackwire.App.Impl.RuntimeStats

/-!
This module contains the collection of the traffic counters that are written to the database: for
labels that survive the splitting of counter names, the snapshot holds the counters of every user
and nothing else.
-/

namespace Blackwire.Cli

open RuntimeStats

abbrev Tally := Dir → Nat

abbrev Tallies := String → Option Tally

structure RuntimeCounterSnapshots where
  users : Tallies
  inbounds : Tallies

def Tallies.entry (t : Tallies) (owner dir : String) (value : Nat) : Tallies :=
  let tally := (t owner).getD fun _ => 0
  match dir with
  | "uplink" => Function.update t owner (some (Function.update tally .uplink value))
  | "downlink" => Function.update t owner (some (Function.update tally .downlink value))
  | _ => Function.update t owner (some tally)

def nameParts (name : String) : List String :=
  (Text.split ">>>".toList name.toList).map String.ofList

namespace runtimeCounterSnapshots

def step (snap : RuntimeCounterSnapshots) (counter : String × Int) : RuntimeCounterSnapshots :=
  let value := (max counter.snd 0).toNat
  match nameParts counter.fst with
  | [kind, owner, "traffic", dir] =>
    match kind with
    | "user" => { snap with users := snap.users.entry owner dir value }
    | "inbound" => { snap with inbounds := snap.inbounds.entry owner dir value }
    | _ => snap
  | _ => snap

end runtimeCounterSnapshots

def runtimeCounterSnapshots (c : Counters) (order : List String) : RuntimeCounterSnapshots :=
  (query c order ">>>traffic>>>").foldl runtimeCounterSnapshots.step ⟨fun _ => none, fun _ => none⟩

open List

def Splittable (owner : String) : Prop :=
  Text.Unbroken ">>>".toList owner.toList

instance (owner : String) : Decidable (Splittable owner) :=
  inferInstanceAs (Decidable (Text.Unbroken _ _))

theorem toList_trafficName (kind owner : String) (dir : Dir)
    : (trafficName kind owner dir).toList
        =
      kind.toList ++ ">>>".toList
        ++ (owner.toList ++ ">>>".toList
          ++ ("traffic".toList ++ ">>>".toList ++ dir.name.toList)) := by
  have hsep : ">>>traffic>>>".toList = ">>>".toList ++ "traffic".toList ++ ">>>".toList := by decide
  unfold trafficName
  simp only [String.toList_append, hsep, append_assoc]

theorem nameParts_trafficName (hkind : Splittable kind) (howner : Splittable owner)
    : nameParts (trafficName kind owner dir) = [kind, owner, "traffic", dir.name] := by
  have hdir : Text.split ">>>".toList dir.name.toList = [dir.name.toList] := by
    cases dir <;> decide
  unfold nameParts
  rw [toList_trafficName]
  rw [Text.split_append (by decide) hkind]
  rw [Text.split_append (by decide) howner]
  rw [Text.split_append (by decide) (by decide)]
  rw [hdir]
  simp

theorem trafficName_user_injective
    (h : trafficName "user" owner dir = trafficName "user" owner' dir')
    : owner = owner' ∧ dir = dir' := by
  have hlist := congrArg String.toList h
  rw [toList_trafficName, toList_trafficName] at hlist
  have hdir : dir = dir' := by
    -- The fifth character from the end tells the directions apart.
    have hchar := congrArg (fun l => l.reverse[4]?) hlist
    cases dir <;> cases dir' <;> simp [Dir.name] at hchar ⊢
  refine ⟨?_, hdir⟩
  rw [hdir] at hlist
  have howner : owner.toList = owner'.toList := by
    apply append_cancel_right (append_cancel_right (append_cancel_left hlist))
  exact String.toList_inj.mp howner

theorem trafficName_user_ne_inbound (owner tag : String) (dir dir' : Dir)
    : trafficName "user" owner dir ≠ trafficName "inbound" tag dir' := by
  intro h
  have hlist := congrArg (fun s => s.toList.head?) h
  rw [toList_trafficName, toList_trafficName] at hlist
  simp at hlist

theorem nameParts_inbound
    : nameParts (trafficName "inbound" tag dir) ≠ ["user", owner, "traffic", link] := by
  intro h
  have hjoin := Text.intercalate_split ">>>".toList (trafficName "inbound" tag dir).toList
    (by decide)
  have hparts : Text.split ">>>".toList (trafficName "inbound" tag dir).toList
      = ["user".toList, owner.toList, "traffic".toList, link.toList] := by
    have := congrArg (List.map String.toList) h
    unfold nameParts at this
    simpa [map_map, Function.comp_def] using this
  rw [hparts, toList_trafficName] at hjoin
  have hhead := congrArg head? hjoin
  simp [intercalate] at hhead

def WellNamed (name : String) : Prop :=
  (∃ owner dir, Splittable owner ∧ name = trafficName "user" owner dir)
    ∨ ∃ tag dir, name = trafficName "inbound" tag dir

def tally (c : Counters) (user : String) : Tally :=
  fun dir => (max ((c (trafficName "user" user dir)).getD 0) 0).toNat

namespace runtimeCounterSnapshots

def partialTally (c : Counters) (seen : List String) (user : String) : Option Tally :=
  if ∃ dir, trafficName "user" user dir ∈ seen then
    some fun dir => if trafficName "user" user dir ∈ seen then tally c user dir else 0
  else
    none

theorem partialTally_getD (c : Counters) (seen : List String) (user : String)
    : (partialTally c seen user).getD (fun _ => 0)
        =
      fun dir => if trafficName "user" user dir ∈ seen then tally c user dir else 0 := by
  unfold partialTally
  split
  . rfl
  . next hnone =>
    funext dir
    rw [if_neg]
    . rfl
    . intro hmem
      exact hnone ⟨dir, hmem⟩

theorem entry_name (t : Tallies) (owner : String) (dir : Dir) (value : Nat)
    : t.entry owner dir.name value
        =
      Function.update t owner
        (some (Function.update ((t owner).getD fun _ => 0) dir value)) := by
  cases dir <;> rfl

theorem step_user (howner : Splittable owner)
    : (step snap (trafficName "user" owner dir, value)).users
        =
      Function.update snap.users owner
        (some (Function.update ((snap.users owner).getD fun _ => 0) dir
          (max value 0).toNat)) := by
  unfold step
  rw [nameParts_trafficName (by decide) howner]
  rw [← entry_name]
  rfl

theorem step_inbound (snap : RuntimeCounterSnapshots) (tag : String) (dir : Dir) (value : Int)
    : (step snap (trafficName "inbound" tag dir, value)).users = snap.users := by
  unfold step
  split
  . next kind owner link hparts =>
    split
    . exact absurd hparts nameParts_inbound
    . rfl
    . rfl
  . rfl

theorem step_partialTally (hname : WellNamed name) (hvalue : c name = some value)
    (hsnap : ∀ user, snap.users user = partialTally c seen user)
    : ∀ user, (step snap (name, value)).users user = partialTally c (name :: seen) user := by
  intro user
  cases hname with
  | inr hinbound =>
    rcases hinbound with ⟨tag, dir, hname⟩
    rw [hname, step_inbound, hsnap]
    unfold partialTally
    simp only [mem_cons, trafficName_user_ne_inbound, false_or]
  | inl huser =>
    rcases huser with ⟨owner, dir, howner, hname⟩
    rw [hname, step_user howner]
    by_cases heq : user = owner
    . rw [heq, Function.update_self, hsnap, partialTally_getD]
      unfold partialTally
      rw [if_pos ⟨dir, by simp⟩]
      congr 1
      funext dir'
      by_cases hdir : dir' = dir
      . rw [hdir, Function.update_self]
        simp [tally, ← hname, hvalue]
      rw [Function.update_of_ne hdir]
      have hne : trafficName "user" owner dir' ≠ trafficName "user" owner dir := by
        intro h
        exact hdir (trafficName_user_injective h).right
      simp [hne]
    . rw [Function.update_of_ne heq, hsnap]
      have hne : ∀ dir', trafficName "user" user dir' ≠ trafficName "user" owner dir := by
        intro dir' h
        exact heq (trafficName_user_injective h).left
      unfold partialTally
      simp only [mem_cons, hne, false_or]

theorem foldl_partialTally (c : Counters) (counters : List (String × Int))
    (hcounters : ∀ p ∈ counters, WellNamed p.fst ∧ c p.fst = some p.snd) (seen : List String)
    (snap : RuntimeCounterSnapshots) (hsnap : ∀ user, snap.users user = partialTally c seen user)
    : ∀ user, (counters.foldl step snap).users user
        = partialTally c ((counters.map Prod.fst).reverse ++ seen) user := by
  induction counters generalizing seen snap with
  | nil => exact hsnap
  | cons p counters ih =>
    have hp := hcounters p (by simp)
    rw [foldl_cons, map_cons, reverse_cons, append_assoc]
    apply ih
    . intro q hq
      apply hcounters
      exact mem_cons_of_mem _ hq
    . exact step_partialTally hp.left hp.right hsnap

end runtimeCounterSnapshots

theorem contains_traffic_trafficName (kind owner : String) (dir : Dir)
    : ">>>traffic>>>".toList <:+: (trafficName kind owner dir).toList := by
  unfold trafficName
  simp only [String.toList_append]
  exact ⟨_, _, rfl⟩

theorem WellNamed.contains_traffic (h : WellNamed name)
    : ">>>traffic>>>".toList <:+: name.toList := by
  rcases h with ⟨_, _, _, h⟩ | ⟨_, _, h⟩
  . rw [h]
    apply contains_traffic_trafficName
  . rw [h]
    apply contains_traffic_trafficName

theorem mem_query (c : Counters) (name : String) (value : Int) (hnamed : ∀ n ∈ order, WellNamed n)
    : (name, value) ∈ query c order ">>>traffic>>>" ↔ name ∈ order ∧ c name = some value := by
  unfold query
  rw [mem_filterMap]
  constructor
  . rintro ⟨n, hn, heq⟩
    rw [if_pos (hnamed n hn).contains_traffic] at heq
    rw [Option.map_eq_some_iff] at heq
    rcases heq with ⟨v, hv, hpair⟩
    simp only [Prod.mk.injEq] at hpair
    rw [← hpair.left, ← hpair.right]
    exact ⟨hn, hv⟩
  . intro h
    refine ⟨name, h.left, ?_⟩
    rw [if_pos (hnamed name h.left).contains_traffic]
    rw [h.right]
    rfl

theorem runtimeCounterSnapshots_users (c : Counters) (order : List String)
    (horder : ∀ name, name ∈ order ↔ (c name).isSome) (hnamed : ∀ name ∈ order, WellNamed name)
    (user : String)
    : (runtimeCounterSnapshots c order).users user
        =
      if ∃ dir, (c (trafficName "user" user dir)).isSome then some (tally c user) else none := by
  have hfold := runtimeCounterSnapshots.foldl_partialTally c (query c order ">>>traffic>>>")
    (by
      intro p hp
      have := (mem_query c p.fst p.snd hnamed).mp hp
      exact ⟨hnamed _ this.left, this.right⟩)
    [] ⟨fun _ => none, fun _ => none⟩ (by simp [runtimeCounterSnapshots.partialTally]) user
  have hseen : ∀ dir, trafficName "user" user dir
        ∈ ((query c order ">>>traffic>>>").map Prod.fst).reverse ++ []
      ↔ (c (trafficName "user" user dir)).isSome := by
    intro dir
    rw [append_nil, mem_reverse, mem_map, Option.isSome_iff_exists]
    constructor
    . rintro ⟨p, hp, hname⟩
      have := (mem_query c p.fst p.snd hnamed).mp hp
      rw [← hname]
      exact ⟨p.snd, this.right⟩
    . rintro ⟨value, hvalue⟩
      refine ⟨(trafficName "user" user dir, value), ?_, rfl⟩
      rw [mem_query c _ _ hnamed, horder]
      simp [hvalue]
  unfold runtimeCounterSnapshots
  rw [hfold]
  unfold runtimeCounterSnapshots.partialTally
  simp only [hseen]
  split
  . congr 1
    funext dir
    split
    . rfl
    . next hnone =>
      rw [Option.not_isSome_iff_eq_none] at hnone
      simp [tally, hnone]
  . rfl

end Blackwire.Cli
