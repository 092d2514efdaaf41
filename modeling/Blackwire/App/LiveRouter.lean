import Mathlib.Data.List.Infix
import Blackwire.Lib.Versioned
import Blackwire.App.RouteMatch

/-!
This module contains the live router: the routing decision with its cache, and the swap of the
rules. A call that starts behind a swap uses the new rules, unless another call has loaded the old
rules while the swap was under way.
-/

namespace Blackwire

structure StableHash where
  address : Address → UInt64
  str : String → UInt64
  option : Option String → UInt64

structure RouteCacheKey where
  destHash : UInt64
  port : Nat
  network : Network
  inboundTagHash : UInt64
  userHash : UInt64
  sniffedProtocolHash : UInt64
  sniffedDomainHash : UInt64
deriving DecidableEq

def RouteCacheKey.fromContext (h : StableHash) (ctx : RoutingContext) : RouteCacheKey where
  destHash := h.address ctx.dest
  port := ctx.dest.port
  network := ctx.network
  inboundTagHash := h.str ctx.inboundTag
  userHash := h.option ctx.user
  sniffedProtocolHash := h.option ctx.sniffedProtocol
  sniffedDomainHash := h.option ctx.sniffedDomain

def routeCacheDefaultTtl : Nat := 30000
def routeCacheHealthTtl : Nat := 250

def routeCacheTtl (route : Route) : Nat :=
  let tag := route.outboundTag.toList
  if "auto-".toList <+: tag ∨ "balancer".toList <:+: tag then
    routeCacheHealthTtl
  else
    routeCacheDefaultTtl

def LiveRouter.design (a : Automata) (h : StableHash) (shard : RouteCacheKey → Nat) (shards : Nat)
    : Versioned.Design RouterInner RouteCacheKey RoutingContext (Route × Bool) where
  decide := RouterInner.pickRouteMatchUncached a
  key := RouteCacheKey.fromContext h
  ttl := fun decision => routeCacheTtl decision.fst
  shard := shard
  shards := shards

end Blackwire

namespace Blackwire.LiveRouter

open Versioned Machine

theorem route_swap_takes_effect (a : Automata) (h : StableHash) (shard : RouteCacheKey → Nat)
    (shards : Nat) (contexts : Set RoutingContext)
    (hkey : Set.InjOn (RouteCacheKey.fromContext h) contexts) (inner : RouterInner)
    (s : State RouterInner RouteCacheKey RoutingContext (Route × Bool))
    (hs : Reach (design a h shard shards).step (Design.Within contexts) (State.new inner) s)
    : (design a h shard shards).Current s := by
  apply Design.current_of_reach
  . exact hkey
  . exact hs

def noAutomata : Automata where
  toLowercase := id
  keyword := fun _ _ => false
  regex := fun _ _ => false
  geosite := fun _ _ => false

def noHash : StableHash := ⟨fun _ => 0, fun _ => 0, fun _ => 0⟩

def onlyDefault (tag : String) : RouterInner :=
  .new [] tag ⟨Table.empty, Table.empty⟩ none

def connection : RoutingContext where
  dest := .domain "example.com" 443
  network := .tcp
  inboundTag := "in"
  user := none
  sniffedProtocol := none
  sniffedDomain := none

def oneShard : Design RouterInner RouteCacheKey RoutingContext (Route × Bool) :=
  design noAutomata noHash (fun _ => 0) 1

def after (events : List (Event RouterInner RoutingContext))
    : State RouterInner RouteCacheKey RoutingContext (Route × Bool) :=
  events.foldl oneShard.step (State.new (onlyDefault "old"))

def threeCalls : List (Event RouterInner RoutingContext) :=
  [.start 0 connection, .lookup 0 1, .load 0, .insert 0 2, .bump (onlyDefault "new"),
    .start 1 connection, .lookup 1 3, .clear 0, .store 0, .load 1, .insert 1 4,
    .start 2 connection, .lookup 2 5]

theorem route_swap_takes_effect_three_calls
    : oneShard.Current (after threeCalls)
      ∧ (after threeCalls).returned
        = [⟨connection, 0, (⟨"old"⟩, false), 1⟩, ⟨connection, 0, (⟨"new"⟩, false), 2⟩,
          ⟨connection, 1, (⟨"new"⟩, false), 2⟩] := by
  constructor
  . apply route_swap_takes_effect noAutomata noHash _ _ {connection} (Set.injOn_singleton _ _)
    apply Reach.foldl
    . exact Reach.start
    . apply Allowed.and
      . decide +kernel
      . simp [threeCalls, Event.argument]
  . rfl

-- A call loads the rules while a swap is under way, and leaves its decision for a later call.
def loadsBetween : List (Event RouterInner RoutingContext) :=
  [.bump (onlyDefault "new"), .start 0 connection, .lookup 0 1, .load 0, .clear 0, .insert 0 2,
    .store 0, .start 1 connection, .lookup 1 3]

theorem route_swap_serves_old_rules
    : (after loadsBetween).swaps = [] ∧ (after loadsBetween).history.length = 2
      ∧ ⟨connection, 1, (⟨"old"⟩, false), 2⟩ ∈ (after loadsBetween).returned
      ∧ ¬oneShard.Current (after loadsBetween) := by
  have hmem : ⟨connection, 1, (⟨"old"⟩, false), 2⟩ ∈ (after loadsBetween).returned := by
    exact List.mem_cons_of_mem _ List.mem_cons_self
  refine ⟨rfl, rfl, hmem, fun hcurrent => ?_⟩
  rcases hcurrent.returned _ hmem with ⟨n, v, hsince, hupto, hv, hdecision⟩
  dsimp only at hsince hupto hdecision
  have hn : n = 1 := by omega
  have hnew : (after loadsBetween).history[1]? = some (onlyDefault "new") := by
    rfl
  rw [hn, hnew, Option.some.injEq] at hv
  rw [← hv] at hdecision
  exact absurd hdecision (by decide +kernel)

end Blackwire.LiveRouter
