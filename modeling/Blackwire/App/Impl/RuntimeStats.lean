import Mathlib.Algebra.Ring.Nat
import Mathlib.Algebra.Ring.Int.Defs
import Mathlib.Data.Fintype.Basic

/-!
This module contains the counters of the running process. They are `i64` values under a name, they
start at zero and they only live as long as the process.
-/

namespace Blackwire.RuntimeStats

inductive Dir where
  | uplink
  | downlink
deriving DecidableEq

instance : Fintype Dir where
  elems := {.uplink, .downlink}
  complete := by
    intro dir
    cases dir <;> simp

def Dir.name : Dir → String
  | .uplink => "uplink"
  | .downlink => "downlink"

abbrev Counters := String → Option Int

def empty : Counters := fun _ => none

-- `fetch_add` of an `AtomicI64` wraps around.
def fetchAdd (value delta : Int) : Int :=
  (value + delta).bmod (2 ^ 64)

variable (c : Counters)

def increment (name : String) (delta : Int) : Counters :=
  Function.update c name (some (fetchAdd ((c name).getD 0) delta))

def i64Max : Nat := 2 ^ 63 - 1

def trafficName (kind owner : String) (dir : Dir) : String :=
  kind ++ ">>>" ++ owner ++ ">>>traffic>>>" ++ dir.name

def count (kind owner : String) (dir : Dir) (bytes : Nat) : Counters :=
  increment c (trafficName kind owner dir) (min bytes i64Max : Nat)

def recordUserTraffic (user : String) (rxBytes txBytes : Nat) : Counters :=
  count (count c "user" user .uplink rxBytes) "user" user .downlink txBytes

def recordRelayTraffic (inbound : String) (user : Option String)
    (rxBytes txBytes : Nat) : Counters :=
  let c := count (count c "inbound" inbound .uplink rxBytes) "inbound" inbound .downlink txBytes
  match user with
  | none => c
  | some user => recordUserTraffic c user rxBytes txBytes

def query (order : List String) (needle : String) : List (String × Int) :=
  order.filterMap fun name =>
    if needle.toList <:+: name.toList then
      (c name).map fun value => (name, value)
    else
      none

end Blackwire.RuntimeStats
