import Blackwire.Lib.Bytes
import Blackwire.Lib.Machine
import Mathlib.Algebra.BigOperators.Fin

/-!
This module contains the loss window of the BadNet congestion controller and what its totals are
made of. Instants and durations are counted in nanoseconds.
-/

namespace Blackwire
namespace BadNet

open List Usize Machine

def lossWindowSecs : Nat := 5

def idleResetAfter : Nat := 2 * 10 ^ 9

def packetsFromBytes (bytes mtu : Nat) : Nat := max (bytes / max mtu 1) 1

structure LossSlot where
  second : Nat := 0
  ackedPackets : Nat := 0
  lostPackets : Nat := 0
  ackedBytes : Nat := 0
  lostBytes : Nat := 0

namespace LossSlot

variable (bytes packets : Nat) (slot : LossSlot)

def addAck : LossSlot :=
  { slot with
    ackedBytes := saturatingAdd slot.ackedBytes bytes
    ackedPackets := saturatingAdd slot.ackedPackets packets }

def addLoss : LossSlot :=
  { slot with
    lostBytes := saturatingAdd slot.lostBytes bytes
    lostPackets := saturatingAdd slot.lostPackets packets }

end LossSlot

structure LossWindow where
  slots : Fin lossWindowSecs → LossSlot

namespace LossWindow

def reset : LossWindow := ⟨fun _ => {}⟩

def index (second : Nat) : Fin lossWindowSecs := ⟨second % lossWindowSecs, Nat.mod_lt _ (by decide)⟩

def slot (window : LossWindow) (second : Nat) : LossSlot :=
  let slot := window.slots (index second)
  if slot.second ≠ second then { second } else slot

variable (window : LossWindow)

/--
What the caller of `slot` leaves in the slot that it has borrowed.
-/
def modify (second : Nat) (change : LossSlot → LossSlot) : LossWindow :=
  ⟨Function.update window.slots (index second) (change (window.slot second))⟩

def recordAck (second bytes packets : Nat) : LossWindow :=
  window.modify second (LossSlot.addAck bytes packets)

def recordLoss (second bytes packets : Nat) : LossWindow :=
  window.modify second (LossSlot.addLoss bytes packets)

def totals : LossSlot :=
  ((finRange lossWindowSecs).map window.slots).foldl (fun acc slot => { acc with
    ackedBytes := saturatingAdd acc.ackedBytes slot.ackedBytes
    lostBytes := saturatingAdd acc.lostBytes slot.lostBytes
    ackedPackets := saturatingAdd acc.ackedPackets slot.ackedPackets
    lostPackets := saturatingAdd acc.lostPackets slot.lostPackets }) {}

end LossWindow

structure BadNetController where
  mtu : Nat
  lossWindow : LossWindow
  start : Nat
  lastActivity : Nat

namespace BadNetController

def build (now currentMtu : Nat) : BadNetController := ⟨currentMtu, .reset, now, now⟩

variable (c : BadNetController)

def slotSecond (now : Nat) : Nat := (now - c.start) / 10 ^ 9

/--
The decision that follows is taken from the totals of the window that is left here.
-/
def recompute (now : Nat) : BadNetController :=
  { c with
    lossWindow := if now - c.lastActivity > idleResetAfter then .reset else c.lossWindow
    lastActivity := now }

def onCongestionEvent (now lostBytes : Nat) : BadNetController :=
  let packets := packetsFromBytes lostBytes c.mtu
  let window := c.lossWindow.recordLoss (c.slotSecond now) lostBytes packets
  recompute { c with lossWindow := window } now

def onAck (now bytes : Nat) : BadNetController :=
  let window := if now - c.lastActivity > idleResetAfter then .reset else c.lossWindow
  let packets := packetsFromBytes bytes c.mtu
  recompute { c with lossWindow := window.recordAck (c.slotSecond now) bytes packets } now

end BadNetController

inductive Event where
  | onAck (now bytes : Nat)
  | onCongestionEvent (now lostBytes : Nat)

inductive Tally where
  | ackedBytes
  | ackedPackets
  | lostBytes
  | lostPackets

def LossSlot.get (slot : LossSlot) : Tally → Nat
  | .ackedBytes => slot.ackedBytes
  | .ackedPackets => slot.ackedPackets
  | .lostBytes => slot.lostBytes
  | .lostPackets => slot.lostPackets

namespace Event

def now : Event → Nat
  | .onAck now _ => now
  | .onCongestionEvent now _ => now

def second (start : Nat) (e : Event) : Nat := (e.now - start) / 10 ^ 9

def amount (mtu : Nat) (tally : Tally) : Event → Nat
  | .onAck _ bytes =>
    match tally with
    | .ackedBytes => bytes
    | .ackedPackets => packetsFromBytes bytes mtu
    | _ => 0
  | .onCongestionEvent _ lostBytes =>
    match tally with
    | .lostBytes => lostBytes
    | .lostPackets => packetsFromBytes lostBytes mtu
    | _ => 0

end Event

/--
The events that no idle gap separates from the newest one, which comes first.
-/
def live : List Event → List Event
  | [] => []
  | [e] => [e]
  | e :: before :: older =>
    if e.now - before.now > idleResetAfter then [e] else e :: live (before :: older)

/--
The events that the totals should be made of when the newest one, which comes first, was at `now`.
-/
def counted (start now : Nat) (history : List Event) : List Event :=
  (live history).filter fun e => (now - start) / 10 ^ 9 < e.second start + lossWindowSecs

def BadNetController.handle (c : BadNetController) : Event → BadNetController
  | .onAck now bytes => c.onAck now bytes
  | .onCongestionEvent now lostBytes => c.onCongestionEvent now lostBytes

/--
A controller with the calls that it has handled, the newest one first.
-/
structure Session where
  controller : BadNetController
  history : List Event

def Session.step (s : Session) (e : Event) : Session := ⟨s.controller.handle e, e :: s.history⟩

theorem LossWindow.index_eq_iff : index m = index n ↔ m % lossWindowSecs = n % lossWindowSecs :=
  Fin.mk.injEq _ _ _ _ ▸ Iff.rfl

theorem LossWindow.second_slot : (LossWindow.slot window second).second = second := by
  unfold slot
  simp only
  split
  . rfl
  . next h => exact not_not.mp h

theorem LossWindow.slots_modify (window : LossWindow) (change : LossSlot → LossSlot)
    : (window.modify second change).slots i
        = if i = index second then change (window.slot second) else window.slots i :=
  Function.update_apply ..

theorem LossWindow.get_totals {window : LossWindow} (sums : Fin lossWindowSecs → Nat)
    (h : ∀ i, (window.slots i).get tally = min (sums i) (2 ^ 64 - 1))
    : window.totals.get tally
        = min ((finRange lossWindowSecs).map sums).sum (2 ^ 64 - 1) := by
  unfold totals
  have hacc : LossSlot.get {} tally = min 0 (2 ^ 64 - 1) := by
    cases tally <;> rfl
  rw [foldl_map, ← Nat.zero_add (map sums _).sum]
  generalize (⟨0, 0, 0, 0, 0⟩ : LossSlot) = acc at hacc ⊢
  generalize finRange lossWindowSecs = indices, 0 = total at hacc ⊢
  induction indices generalizing acc total with
  | nil => exact hacc
  | cons i indices ih =>
    rw [foldl_cons, map_cons, sum_cons, ← Nat.add_assoc]
    apply ih
    have hslot := h i
    cases tally <;> simp only [LossSlot.get, saturatingAdd] at * <;> omega

theorem sum_filter_eq (r : Event → Fin n) (f : Event → Nat) (es : List Event)
    : ((finRange n).map fun i => ((es.filter fun e => r e = i).map f).sum).sum
        = (es.map f).sum := by
  rw [← Fin.sum_univ_def]
  induction es with
  | nil => simp
  | cons e es ih =>
    have hpart : ∀ i, (((e :: es).filter fun e => r e = i).map f).sum
        = (if r e = i then f e else 0) + ((es.filter fun e => r e = i).map f).sum := by
      intro i
      rw [filter_cons]
      by_cases hi : r e = i <;> simp [hi]
    simp only [hpart, Finset.sum_add_distrib, ih]
    simp

def Event.record (mtu : Nat) : Event → LossSlot → LossSlot
  | .onAck _ bytes => LossSlot.addAck bytes (packetsFromBytes bytes mtu)
  | .onCongestionEvent _ lostBytes => LossSlot.addLoss lostBytes (packetsFromBytes lostBytes mtu)

theorem Event.second_record (e : Event) : (e.record mtu slot).second = slot.second := by
  cases e <;> rfl

theorem Event.get_record (e : Event) (h : LossSlot.get slot tally = min total (2 ^ 64 - 1))
    : (e.record mtu slot).get tally = min (e.amount mtu tally + total) (2 ^ 64 - 1) := by
  cases e <;> cases tally <;> simp only [record, amount, LossSlot.get,
    LossSlot.addAck, LossSlot.addLoss, saturatingAdd] at * <;> omega

theorem live_cons {history : List Event} (h : live history = history)
    (hnewest : ∀ before ∈ history.head?, e.now - before.now ≤ idleResetAfter)
    : live (e :: history) = e :: history := by
  cases history with
  | nil => rfl
  | cons before older => rw [live, if_neg (Nat.not_lt.mpr (hnewest before rfl)), h]

open LossWindow (index index_eq_iff)

/--
The part of the sum that belongs to a slot.
-/
def share (start mtu now : Nat) (history : List Event) (i : Fin lossWindowSecs) (tally : Tally)
    : Nat :=
  (((counted start now history).filter fun e => index (e.second start) = i).map
    (Event.amount mtu tally)).sum

namespace BadNetController

/--
The calls come in the order of time, none of them ends an idle gap, and none skips a whole second.
-/
structure Steady (c : BadNetController) (e : Event) : Prop where
  ordered : c.lastActivity ≤ e.now
  active : e.now - c.lastActivity ≤ idleResetAfter
  close : e.second c.start ≤ c.slotSecond c.lastActivity + 1

theorem handle_eq (h : Steady c e)
    : c.handle e
        = { c with
            lossWindow := c.lossWindow.modify (e.second c.start) (e.record c.mtu)
            lastActivity := e.now } := by
  have hactive := Nat.not_lt.mpr h.active
  cases e with
  | onAck now bytes =>
    simp only [handle, onAck, recompute]
    dsimp only [Event.now] at hactive
    rw [if_neg hactive, if_neg hactive]
    rfl
  | onCongestionEvent now lostBytes =>
    simp only [handle, onCongestionEvent, recompute]
    dsimp only [Event.now] at hactive
    rw [if_neg hactive]
    rfl

/--
Every slot holds what the events of its second have brought, of those that the window still covers.
-/
structure Inv (c : BadNetController) (history : List Event) : Prop where
  unbroken : live history = history
  newest : ∀ e ∈ history.head?, e.now = c.lastActivity
  past : ∀ e ∈ history, e.second c.start ≤ c.slotSecond c.lastActivity
  seconds : ∀ e ∈ history, c.slotSecond c.lastActivity < e.second c.start + lossWindowSecs →
    (c.lossWindow.slots (index (e.second c.start))).second = e.second c.start
  slots : ∀ i tally, (c.lossWindow.slots i).get tally
    = min (share c.start c.mtu c.lastActivity history i tally) (2 ^ 64 - 1)

variable {c : BadNetController} (h : c.Inv history) (he : c.Steady e)

theorem Steady.present_le (he : c.Steady e) : c.slotSecond c.lastActivity ≤ e.second c.start :=
  Nat.div_le_div_right (Nat.sub_le_sub_right he.ordered c.start)

include h he

theorem Inv.share_eq (tally : Tally) (hkeep : ∀ x ∈ history, index (x.second c.start) = i →
      c.slotSecond c.lastActivity < x.second c.start + lossWindowSecs →
        e.second c.start < x.second c.start + lossWindowSecs)
    : share c.start c.mtu e.now history i tally
        = share c.start c.mtu c.lastActivity history i tally := by
  have hmono := he.present_le
  unfold share counted
  rw [h.unbroken, filter_filter, filter_filter]
  congr 2
  apply filter_congr
  intro x hx
  rw [Bool.eq_iff_iff, Bool.and_eq_true, Bool.and_eq_true]
  simp only [decide_eq_true_eq]
  exact ⟨fun ⟨hi, hlt⟩ => ⟨hi, hmono.trans_lt hlt⟩, fun ⟨hi, hlt⟩ => ⟨hi, hkeep x hx hi hlt⟩⟩

theorem Inv.get_slot (tally : Tally)
    : (c.lossWindow.slot (e.second c.start)).get tally
        = min (share c.start c.mtu e.now history (index (e.second c.start)) tally)
          (2 ^ 64 - 1) := by
  have hmono := he.present_le
  unfold LossWindow.slot
  simp only
  split
  . unfold share counted
    rw [h.unbroken, filter_filter, filter_eq_nil_iff.mpr]
    . cases tally <;> rfl
    . intro x hx
      simp only [Bool.and_eq_true, decide_eq_true_eq, not_and]
      intro hi (hlt : e.second c.start < _)
      have hpast := h.past x hx
      have hseconds := h.seconds x hx (hmono.trans_lt hlt)
      rw [hi] at hseconds
      rw [index_eq_iff] at hi
      unfold lossWindowSecs at hi hlt
      omega
  . next hsame =>
    rw [h.slots, h.share_eq he]
    intro x hx hi hlt
    have hseconds := h.seconds x hx hlt
    rw [hi, not_not.mp hsame] at hseconds
    rw [← hseconds]
    exact Nat.lt_add_of_pos_right (by decide)

theorem Inv.unbroken_cons : live (e :: history) = e :: history := by
  apply live_cons h.unbroken
  intro before hbefore
  rw [h.newest before hbefore]
  exact he.active

theorem Inv.share_cons (tally : Tally)
    : share c.start c.mtu e.now (e :: history) i tally
        = (if index (e.second c.start) = i then e.amount c.mtu tally else 0)
          + share c.start c.mtu e.now history i tally := by
  unfold share counted
  rw [h.unbroken_cons he, h.unbroken, filter_cons_of_pos, filter_cons]
  . by_cases hi : index (e.second c.start) = i <;> simp [hi]
  . rw [decide_eq_true_eq]
    exact Nat.lt_add_of_pos_right (by decide)

theorem Inv.handle : (c.handle e).Inv (e :: history) := by
  have hmono := he.present_le
  have hpast : ∀ x ∈ e :: history, x.second c.start ≤ e.second c.start := by
    rw [forall_mem_cons]
    exact ⟨Nat.le_refl _, fun x hx => (h.past x hx).trans hmono⟩
  rw [handle_eq he]
  constructor
  . exact h.unbroken_cons he
  . intro x hx
    cases hx
    rfl
  . exact hpast
  . intro x hx (hlt : e.second c.start < x.second c.start + lossWindowSecs)
    rw [LossWindow.slots_modify]
    split
    . next hi =>
      have hle := hpast x hx
      rw [Event.second_record, LossWindow.second_slot]
      rw [index_eq_iff] at hi
      unfold lossWindowSecs at hi hlt
      dsimp only at hi ⊢
      omega
    . next hi =>
      rcases mem_cons.mp hx with rfl | hx
      . exact absurd rfl hi
      . exact h.seconds x hx (hmono.trans_lt hlt)
  . intro i tally
    rw [LossWindow.slots_modify, h.share_cons he]
    split
    . next hi =>
      rw [hi, if_pos rfl]
      exact e.get_record (h.get_slot he tally)
    . next hi =>
      rw [if_neg (Ne.symm hi), Nat.zero_add, h.slots, h.share_eq he]
      intro x hx hx' hlt
      have hclose := he.close
      rw [← hx', index_eq_iff] at hi
      unfold lossWindowSecs at hi hlt ⊢
      omega

omit h he

theorem inv_build (now mtu : Nat) : (build now mtu).Inv [] where
  unbroken := rfl
  newest := nofun
  past := nofun
  seconds := nofun
  slots i tally := by
    cases tally <;> rfl

end BadNetController

namespace Session

/--
As long as no call ends an idle gap or skips a second, the totals that the next decision is taken
from are the sums over the events that the window should cover.
-/
theorem totals_of_steady (now mtu : Nat) (s : Session) (e : Event) (tally : Tally)
    (hs : Reach step (fun s e => s.controller.Steady e) ⟨.build now mtu, []⟩ s)
    (he : s.controller.Steady e)
    : (s.step e).controller.lossWindow.totals.get tally
        = min ((counted s.controller.start e.now (e :: s.history)).map
          (Event.amount s.controller.mtu tally)).sum (2 ^ 64 - 1) := by
  have hinv : s.controller.Inv s.history := by
    apply hs.invariant fun s => s.controller.Inv s.history
    . exact BadNetController.inv_build now mtu
    . intro s e h he
      exact h.handle he
  have hslots := (hinv.handle he).slots
  rw [BadNetController.handle_eq he] at hslots
  unfold step
  rw [BadNetController.handle_eq he, LossWindow.get_totals _ fun i => hslots i tally]
  unfold share
  rw [sum_filter_eq]

theorem totals_of_steady_second
    : ([.onAck 0 5000, .onCongestionEvent (10 ^ 9) 2000].foldl step ⟨.build 0 1000, []⟩
        ).controller.lossWindow.totals.get .lostPackets = 2 := by
  have hs : Reach step (fun s e => s.controller.Steady e) ⟨.build 0 1000, []⟩
      (step ⟨.build 0 1000, []⟩ (.onAck 0 5000)) :=
    .step _ _ .start ⟨by decide, by decide, by decide⟩
  exact totals_of_steady 0 1000 _ (.onCongestionEvent (10 ^ 9) 2000) .lostPackets hs
    ⟨by decide, by decide, by decide⟩

def run (events : List Event) : Session := events.foldl step ⟨.build 0 1000, []⟩

def expected (s : Session) : Nat :=
  ((counted 0 s.controller.lastActivity s.history).map (Event.amount 1000 .ackedBytes)).sum

/--
An acknowledgement that ends an idle gap is not counted, and one that is older than the window is
counted as long as no event falls into its slot.
-/
theorem totals_of_gap
    : let gap := run [.onAck 0 100, .onAck (3 * 10 ^ 9) 100]
      let skipped := run [.onAck 0 100, .onAck (2 * 10 ^ 9) 100, .onAck (4 * 10 ^ 9) 100,
        .onAck (6 * 10 ^ 9) 100]
      gap.controller.lossWindow.totals.ackedBytes = 0
        ∧ gap.expected = 100
        ∧ skipped.controller.lossWindow.totals.ackedBytes = 400
        ∧ skipped.expected = 300 := by
  decide

end Session
end BadNet
end Blackwire
