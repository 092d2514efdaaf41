import Blackwire.Lib.Bytes
import Blackwire.Lib.Machine
import Mathlib.Tactic.FinCases

/-!
This module contains the pool of reusable byte buffers and what it hands out.
-/

namespace Blackwire
namespace Common

open Machine

structure BytesMut where
  data : Bytes
  capacity : Nat
  le_capacity : data.length ≤ capacity

namespace BytesMut

def empty (capacity : Nat) : BytesMut := ⟨[], capacity, Nat.zero_le capacity⟩

def clear (buf : BytesMut) : BytesMut :=
  { buf with data := [], le_capacity := Nat.zero_le buf.capacity }

end BytesMut

/--
A queue of `crossbeam_queue`: what is pushed when it is full comes back to the caller.
-/
structure ArrayQueue (α : Type) where
  cap : Nat
  items : List α

namespace ArrayQueue

def new (α : Type) (cap : Nat) : ArrayQueue α := ⟨cap, []⟩

def push {α : Type} (queue : ArrayQueue α) (item : α) : ArrayQueue α :=
  if queue.items.length < queue.cap then
    { queue with items := queue.items ++ [item] }
  else
    queue

def pop {α : Type} (queue : ArrayQueue α) : Option (α × ArrayQueue α) :=
  match queue.items with
  | [] => none
  | item :: items => some (item, { queue with items := items })

end ArrayQueue

def smallPerCpu : Nat := 8
def mediumPerCpu : Nat := 4
def largePerCpu : Nat := 2
def hugePerCpu : Nat := 1

def controlBufferSize : Nat := 4 * 1024
def defaultRelayBufferSize : Nat := 16 * 1024
def bulkRelayBufferSize : Nat := 64 * 1024
def quicBulkBufferSize : Nat := 256 * 1024

structure PoolClass where
  size : Nat
  label : String
deriving DecidableEq

namespace PoolClass

def control : PoolClass := ⟨controlBufferSize, "4k"⟩
def relay : PoolClass := ⟨defaultRelayBufferSize, "16k"⟩
def bulk : PoolClass := ⟨bulkRelayBufferSize, "64k"⟩
def huge : PoolClass := ⟨quicBulkBufferSize, "256k"⟩

end PoolClass

def classFor (hint : Nat) : PoolClass :=
  if hint ≤ controlBufferSize then
    .control
  else if hint ≤ defaultRelayBufferSize then
    .relay
  else if hint ≤ bulkRelayBufferSize then
    .bulk
  else if hint ≤ quicBulkBufferSize then
    .huge
  else
    ⟨hint, "oversize"⟩

structure BufferPool where
  small : ArrayQueue BytesMut
  medium : ArrayQueue BytesMut
  large : ArrayQueue BytesMut
  huge : ArrayQueue BytesMut

namespace BufferPool

def new (cpus : Nat) : BufferPool where
  small := .new BytesMut (cpus * smallPerCpu)
  medium := .new BytesMut (cpus * mediumPerCpu)
  large := .new BytesMut (cpus * largePerCpu)
  huge := .new BytesMut (cpus * hugePerCpu)

def poolForClass (pool : BufferPool) (cls : PoolClass) : ArrayQueue BytesMut :=
  if cls.size = controlBufferSize then
    pool.small
  else if cls.size = defaultRelayBufferSize then
    pool.medium
  else if cls.size = bulkRelayBufferSize then
    pool.large
  else
    pool.huge

/--
The pool after the queue that `poolForClass` selects has become `queue`.
-/
def setPoolForClass (pool : BufferPool) (cls : PoolClass) (queue : ArrayQueue BytesMut)
    : BufferPool :=
  if cls.size = controlBufferSize then
    { pool with small := queue }
  else if cls.size = defaultRelayBufferSize then
    { pool with medium := queue }
  else if cls.size = bulkRelayBufferSize then
    { pool with large := queue }
  else
    { pool with huge := queue }

variable (withCapacity : Nat → BytesMut) (pool : BufferPool)

/--
`withCapacity` is `BytesMut::with_capacity`.
-/
def acquire (hint : Nat) : BytesMut × BufferPool :=
  let cls := classFor hint
  if cls.size > quicBulkBufferSize then
    ((withCapacity cls.size).clear, pool)
  else
    match (pool.poolForClass cls).pop with
    | some (buf, queue) => (buf.clear, pool.setPoolForClass cls queue)
    | none => ((withCapacity cls.size).clear, pool)

def release (pool : BufferPool) (buf : BytesMut) : BufferPool :=
  let cls := classFor buf.capacity
  if buf.capacity = 0 then
    pool
  else if buf.capacity > quicBulkBufferSize then
    pool
  else
    pool.setPoolForClass cls ((pool.poolForClass cls).push buf.clear)

inductive Event where
  | acquire (hint : Nat)
  | release (buf : BytesMut)

def step : Event → BufferPool
  | .acquire hint => (pool.acquire withCapacity hint).snd
  | .release buf => pool.release buf

end BufferPool

/-!
A buffer is filed under the class that its own capacity would be requested from, so that the queue
of a class only holds buffers of its size if every buffer that comes back has the size of a class.
-/

namespace PoolClass

def all : List PoolClass := [control, relay, bulk, huge]

end PoolClass

theorem classFor_spec (hint : Nat)
    : hint ≤ (classFor hint).size
        ∧ (hint ≤ quicBulkBufferSize → classFor hint ∈ PoolClass.all) := by
  unfold classFor
  split
  . next h => exact ⟨h, fun _ => by decide⟩
  split
  . next h => exact ⟨h, fun _ => by decide⟩
  split
  . next h => exact ⟨h, fun _ => by decide⟩
  . split
    . next h => exact ⟨h, fun _ => by decide⟩
    . next h => exact ⟨Nat.le_refl hint, fun hle => absurd hle h⟩

theorem classFor_size_of_mem
    : ∀ size ∈ PoolClass.all.map PoolClass.size, (classFor size).size = size := by
  decide

theorem ArrayQueue.items_of_pop {α : Type} {queue rest : ArrayQueue α} {item : α}
    (h : queue.pop = some (item, rest))
    : queue.items = item :: rest.items := by
  unfold pop at h
  split at h
  . cases h
  . next hitems =>
    cases h
    exact hitems

namespace BufferPool

theorem poolForClass_setPoolForClass (pool : BufferPool) (queue : ArrayQueue BytesMut)
    : ∀ cls ∈ PoolClass.all, ∀ other ∈ PoolClass.all,
        (pool.setPoolForClass cls queue).poolForClass other
          =
        if cls = other then queue else pool.poolForClass other := by
  intro cls hcls other hother
  fin_cases hcls <;> fin_cases hother <;> rfl

/--
Every queue holds only buffers that can be handed out for its class.
-/
def Filed (pool : BufferPool) : Prop :=
  ∀ cls ∈ PoolClass.all, ∀ buf ∈ (pool.poolForClass cls).items, cls.size ≤ buf.capacity

/--
The buffers that the pool does not keep, or whose capacity is the size of a class.
-/
def Event.Fits : Event → Prop
  | .acquire _ => True
  | .release buf =>
    buf.capacity = 0
      ∨ buf.capacity ∈ PoolClass.all.map PoolClass.size
      ∨ quicBulkBufferSize < buf.capacity

theorem filed_new (cpus : Nat) : (new cpus).Filed := by
  intro cls hcls buf hbuf
  fin_cases hcls <;> cases hbuf

variable {pool : BufferPool} (h : pool.Filed)

include h

theorem Filed.set (hcls : cls ∈ PoolClass.all)
    (hqueue : ∀ buf ∈ queue.items, cls.size ≤ buf.capacity)
    : (pool.setPoolForClass cls queue).Filed := by
  intro other hother
  rw [poolForClass_setPoolForClass pool queue cls hcls other hother]
  split
  . next heq =>
    rw [← heq]
    exact hqueue
  . exact h other hother

theorem Filed.acquire (hwith : ∀ size, size ≤ (withCapacity size).capacity) (hint : Nat)
    : (pool.acquire withCapacity hint).fst.data = []
        ∧ hint ≤ (pool.acquire withCapacity hint).fst.capacity
        ∧ (pool.acquire withCapacity hint).snd.Filed := by
  rcases classFor_spec hint with ⟨hle, hmem⟩
  have hfresh := hle.trans (hwith (classFor hint).size)
  unfold BufferPool.acquire
  simp only
  split
  . exact ⟨rfl, hfresh, h⟩
  . next hsize =>
    have hcls := hmem (by omega)
    split
    . next buf queue hpop =>
      have hheld := h (classFor hint) hcls
      rw [ArrayQueue.items_of_pop hpop, List.forall_mem_cons] at hheld
      exact ⟨rfl, hle.trans hheld.left, h.set hcls hheld.right⟩
    . exact ⟨rfl, hfresh, h⟩

theorem Filed.release (hfits : (Event.release buf).Fits)
    : (pool.release buf).Filed := by
  unfold BufferPool.release
  simp only
  split
  . exact h
  split
  . exact h
  . next hzero hle =>
    have hcls := (classFor_spec buf.capacity).right (by omega)
    have hheld := h (classFor buf.capacity) hcls
    apply h.set hcls
    unfold ArrayQueue.push
    split
    . rw [List.forall_mem_append, List.forall_mem_singleton]
      refine ⟨hheld, ?_⟩
      rcases hfits with hcap | hcap | hcap
      . exact absurd hcap hzero
      . exact Nat.le_of_eq (classFor_size_of_mem buf.capacity hcap)
      . exact absurd hcap hle
    . exact hheld

omit h

variable (withCapacity) in
/--
If only buffers come back that have the size of a class, or that the pool does not keep, then every
buffer that is handed out is empty and holds what was asked for.
-/
theorem acquire_holds_hint (hwith : ∀ size, size ≤ (withCapacity size).capacity) (cpus : Nat)
    (h : Reach (step withCapacity) (fun _ event => event.Fits) (new cpus) pool) (hint : Nat)
    : (pool.acquire withCapacity hint).fst.data = []
        ∧ hint ≤ (pool.acquire withCapacity hint).fst.capacity := by
  have hfiled : pool.Filed := by
    apply h.invariant Filed
    . exact filed_new cpus
    . intro pool event hfiled hfits
      cases event with
      | acquire hint => exact (hfiled.acquire hwith hint).right.right
      | release buf => exact hfiled.release hfits
  exact ⟨(hfiled.acquire hwith hint).left, (hfiled.acquire hwith hint).right.left⟩

theorem acquire_holds_hint_of_relay
    : (((new 1).release (.empty 16384)).acquire BytesMut.empty 9000).fst.data = []
        ∧ 9000 ≤ (((new 1).release (.empty 16384)).acquire BytesMut.empty 9000).fst.capacity := by
  have hfits : (Event.release (.empty 16384)).Fits := Or.inr (.inl (by decide))
  exact acquire_holds_hint .empty Nat.le_refl 1
    (.step (new 1) (.release (.empty 16384)) .start hfits) 9000

/--
A buffer of 5000 bytes that comes back is handed out for a request of 16 KiB.
-/
theorem acquire_below_hint
    : (((new 1).release (.empty 5000)).acquire BytesMut.empty 16384).fst.capacity < 16384 := by
  decide

end BufferPool

end Common
end Blackwire
