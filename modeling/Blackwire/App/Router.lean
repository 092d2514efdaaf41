import Blackwire.Lib.Bytes
import Blackwire.Lib.SortedScan
import Blackwire.Net.IpNet
import Blackwire.Lib.Table
import Blackwire.Lib.Fallible

/-!
This module contains the state of the router: the compiled rules and the data they are matched with.
The two matchers for addresses, which are verified here, are the one for the `ip` field of a routing
rule and the one for the entries of a GeoIP file.
-/

namespace Blackwire

structure SortedRanges where
  ranges : List IpNet
  sorted : ranges.Pairwise (· ≤ ·)

def SortedRanges.sortUnstable (ranges : List IpNet) : SortedRanges where
  ranges := ranges.insertionSort (· ≤ ·)
  sorted := List.pairwise_insertionSort _ _

def maxOverlapScan : Nat := 4

def SortedRanges.search (m : SortedRanges) (ip : IpAddr) : Bool :=
  if m.ranges.isEmpty then
    false
  else
    match IpNet.new ip ip.fullPrefix with
    | .error _ => m.ranges.any (·.contains ip)
    | .ok probe =>
      SortedScan.scanBack (fun net => decide (net ≤ probe)) maxOverlapScan (·.contains ip) m.ranges

structure IpMatcher extends SortedRanges

namespace IpMatcher

-- The parser of the `ipnet` crate is a parameter.
def new (parse : String → Except String IpNet) (ranges : List String)
    : Except String IpMatcher := do
  let parsed ← ranges.mapM fun r =>
    (parse r).mapError fun e => "invalid CIDR '" ++ r ++ "': " ++ e
  return ⟨SortedRanges.sortUnstable parsed⟩

end IpMatcher

def IpMatcher.matches (m : IpMatcher) (ip : IpAddr) : Bool :=
  m.search ip

structure Cidr where
  ip : List UInt8
  prefixLen : UInt32

structure GeoIp where
  cidr : List Cidr

structure GeoIpMatcher extends SortedRanges

namespace GeoIpMatcher

def parseCidr (cidr : Cidr) : Option IpNet :=
  -- The prefix is truncated to a byte before it is checked.
  let len := cidr.prefixLen.toUInt8.toNat
  match cidr.ip.length with
  | 4 => (IpNet.new (.v4 (BitVec.ofNat 32 (Bytes.ofBigEndian cidr.ip))) len).toOption
  | 16 => (IpNet.new (.v6 (BitVec.ofNat 128 (Bytes.ofBigEndian cidr.ip))) len).toOption
  | _ => none

def fromProto (entry : GeoIp) : GeoIpMatcher :=
  ⟨SortedRanges.sortUnstable (entry.cidr.filterMap parseCidr)⟩

def fromRanges (ranges : List IpNet) : GeoIpMatcher :=
  ⟨SortedRanges.sortUnstable ranges⟩

def matchIp (m : GeoIpMatcher) (ip : IpAddr) : Bool :=
  m.search ip

end GeoIpMatcher

structure Patterns where
  toLowercase : String → String
  toUppercase : String → String
  buildKeywords : List String → Except String Unit
  buildRegexes : List String → Except String Unit
  parseNet : String → Except String IpNet

structure DomainMatcher where
  full : List String
  suffix : List String
  keyword : List String
  regex : List String

def DomainMatcher.new (p : Patterns) (full suffix keywords regexes : List String)
    : Except String DomainMatcher := do
  p.buildKeywords keywords
  p.buildRegexes regexes
  return ⟨full.map p.toLowercase, suffix.map p.toLowercase, keywords, regexes⟩

structure CompiledRule where
  outboundTag : String
  domainMatcher : Option DomainMatcher
  geositeCodes : List String
  ipMatcher : Option IpMatcher
  geoipCodes : List String
  portRanges : List (Nat × Nat)
  inboundTags : List String
  protocols : List String
  users : List String

structure GeoSiteMatcher where
  rules : List String

structure GeoData where
  geoip : Table String GeoIpMatcher
  geosite : Table String GeoSiteMatcher

structure RouterInner where
  rules : List CompiledRule
  defaultTag : String
  geo : GeoData
  domainStrategy : Option String
  hasIpRules : Bool

def RouterInner.new (rules : List CompiledRule) (defaultTag : String) (geo : GeoData)
    (domainStrategy : Option String) : RouterInner where
  rules := rules
  defaultTag := defaultTag
  geo := geo
  domainStrategy := domainStrategy
  hasIpRules := rules.any fun r => r.ipMatcher.isSome || !r.geoipCodes.isEmpty

open SortedScan Fallible

namespace SortedRanges

/--
One of the networks that contain `ip` starts at or before it and has fewer than `maxOverlapScan`
other networks of the list between itself and `ip`.
-/
def InReach (nets : List IpNet) (ip : IpAddr) : Prop :=
  ∃ net ∈ nets,
    net.Covers ip
      ∧ net ≤ IpNet.host ip
      ∧ nets.countP (fun other => decide (net < other ∧ other ≤ IpNet.host ip)) < maxOverlapScan

instance (nets : List IpNet) (ip : IpAddr) : Decidable (InReach nets ip) :=
  inferInstanceAs (Decidable (∃ net ∈ nets, _))

variable (nets : List IpNet) (ip : IpAddr)

theorem perm_sortUnstable : (sortUnstable nets).ranges.Perm nets := by
  apply List.perm_insertionSort

theorem search_eq_scanBack (m : SortedRanges) (ip : IpAddr)
    : m.search ip
        =
      scanBack (fun net => decide (net ≤ IpNet.host ip)) maxOverlapScan (·.contains ip)
        m.ranges := by
  unfold search
  split
  . next h =>
    rw [List.isEmpty_iff] at h
    rw [h]
    rfl
  . rw [IpNet.new_fullPrefix]

theorem search_sortUnstable_iff
    : (sortUnstable nets).search ip = true ↔ InReach nets ip := by
  have hperm := perm_sortUnstable nets
  rw [search_eq_scanBack]
  rw [scanBack_iff _ (sortUnstable nets).sorted]
  unfold InReach
  simp only [IpNet.contains_iff, hperm.mem_iff, hperm.countP_eq]

theorem InReach.covered {nets : List IpNet} {ip : IpAddr} (h : InReach nets ip)
    : ∃ net ∈ nets, net.Covers ip := by
  rcases h with ⟨net, hmem, hcov, _⟩
  exact ⟨net, hmem, hcov⟩

theorem search_exact_iff
    : ((sortUnstable nets).search ip = true ↔ ∃ net ∈ nets, net.Covers ip)
        ↔
      ((∃ net ∈ nets, net.Covers ip) → InReach nets ip) := by
  rw [search_sortUnstable_iff]
  constructor
  . intro hexact hcov
    apply hexact.mpr
    assumption
  . intro hreach
    constructor
    . apply InReach.covered
    . assumption

end SortedRanges

namespace IpMatcher

def parsedRanges (parse : String → Except String IpNet) (ranges : List String) : List IpNet :=
  ranges.filterMap fun r => (parse r).toOption

theorem new_ok (h : new parse ranges = .ok m)
    : m.toSortedRanges = SortedRanges.sortUnstable (parsedRanges parse ranges) := by
  unfold new at h
  rw [bind_eq_ok] at h
  rcases h with ⟨parsed, hparsed, hm⟩
  have hranges : parsed = parsedRanges parse ranges := by
    rw [mapM_eq_ok_filterMap _ _ _ hparsed]
    apply List.filterMap_congr
    intro r _
    cases parse r <;> rfl
  rw [pure_eq_ok] at hm
  rw [← hm, hranges]

end IpMatcher

theorem matchers_exact_iff_inReach (parse : String → Except String IpNet) (ranges : List String)
    (m : IpMatcher) (hm : IpMatcher.new parse ranges = .ok m) (entry : GeoIp) (ip : IpAddr)
    : ((m.matches ip = true ↔ ∃ net ∈ IpMatcher.parsedRanges parse ranges, net.Covers ip)
          ↔
        ((∃ net ∈ IpMatcher.parsedRanges parse ranges, net.Covers ip)
          → SortedRanges.InReach (IpMatcher.parsedRanges parse ranges) ip))
        ∧
      (((GeoIpMatcher.fromProto entry).matchIp ip = true
            ↔ ∃ net ∈ entry.cidr.filterMap GeoIpMatcher.parseCidr, net.Covers ip)
          ↔
        ((∃ net ∈ entry.cidr.filterMap GeoIpMatcher.parseCidr, net.Covers ip)
          → SortedRanges.InReach (entry.cidr.filterMap GeoIpMatcher.parseCidr) ip)) := by
  constructor
  . unfold IpMatcher.matches
    rw [IpMatcher.new_ok hm]
    apply SortedRanges.search_exact_iff
  . apply SortedRanges.search_exact_iff

def nestedEntry : GeoIp where
  cidr := [
    ⟨[10, 0, 0, 0], 8⟩,
    ⟨[10, 0, 0, 1], 32⟩,
    ⟨[10, 0, 0, 2], 32⟩,
    ⟨[10, 0, 0, 3], 32⟩,
    ⟨[10, 0, 0, 4], 32⟩
  ]

def nestedParse (text : String) : Except String IpNet :=
  match text with
  | "10.0.0.0/8" => IpNet.new (.v4 0x0a000000#32) 8
  | "10.0.0.1/32" => IpNet.new (.v4 0x0a000001#32) 32
  | "10.0.0.2/32" => IpNet.new (.v4 0x0a000002#32) 32
  | "10.0.0.3/32" => IpNet.new (.v4 0x0a000003#32) 32
  | "10.0.0.4/32" => IpNet.new (.v4 0x0a000004#32) 32
  | _ => .error "invalid IP address syntax"

def nestedTexts : List String :=
  ["10.0.0.0/8", "10.0.0.1/32", "10.0.0.2/32", "10.0.0.3/32", "10.0.0.4/32"]

theorem matchers_miss_enclosing_network
    : ((IpMatcher.new nestedParse nestedTexts).toOption.map
          (·.matches (.v4 0x0a000009#32)) = some false
        ∧ ∃ net ∈ IpMatcher.parsedRanges nestedParse nestedTexts, net.Covers (.v4 0x0a000009#32))
        ∧
      ((GeoIpMatcher.fromProto nestedEntry).matchIp (.v4 0x0a000009#32) = false
        ∧ ∃ net ∈ nestedEntry.cidr.filterMap GeoIpMatcher.parseCidr,
            net.Covers (.v4 0x0a000009#32)) := by
  decide

theorem matchers_exact_at_listed_host
    : (∃ m, IpMatcher.new nestedParse nestedTexts = .ok m
        ∧ (m.matches (.v4 0x0a000002#32) = true
            ↔ ∃ net ∈ IpMatcher.parsedRanges nestedParse nestedTexts,
                net.Covers (.v4 0x0a000002#32)))
        ∧
      ((GeoIpMatcher.fromProto nestedEntry).matchIp (.v4 0x0a000002#32) = true
        ↔ ∃ net ∈ nestedEntry.cidr.filterMap GeoIpMatcher.parseCidr,
            net.Covers (.v4 0x0a000002#32)) := by
  let m : IpMatcher := ⟨SortedRanges.sortUnstable (IpMatcher.parsedRanges nestedParse nestedTexts)⟩
  have hexact := matchers_exact_iff_inReach nestedParse nestedTexts m rfl nestedEntry
    (.v4 0x0a000002#32)
  constructor
  . refine ⟨m, rfl, hexact.left.mpr ?_⟩
    decide
  . apply hexact.right.mpr
    decide

end Blackwire
