import Blackwire.Common.Address
import Blackwire.App.Router
import Mathlib.Data.List.Infix

/-!
This module contains the routing decision: how a compiled rule is matched with a connection, which
outbound the rules of a router choose, and which destinations the dispatcher asks the router for, as
the domain strategy says, and in which order. While the rules stay the same the cache of the router
does not show, so the router is its rules here. The matchers for domain names are verified, and how
`IPOnDemand` orders the rules.
-/

namespace Blackwire

open Bytes

inductive Network where
  | tcp
  | udp
deriving DecidableEq

def Address.ip : Address → Option IpAddr
  | ipv4 ip _ => some (.v4 ip)
  | ipv6 ip _ => some (.v6 ip)
  | domain _ _ => none

structure RoutingContext where
  dest : Address
  network : Network
  inboundTag : String
  user : Option String
  sniffedProtocol : Option String
  sniffedDomain : Option String

/--
The functions of the standard library and of the `aho_corasick` and the `regex` crate that domain
names are matched with, and the matcher for the groups of a geosite file.
-/
structure Automata where
  toLowercase : String → String
  keyword : List String → String → Bool
  regex : List String → String → Bool
  geosite : GeoSiteMatcher → String → Bool

namespace DomainMatcher

def dropLabel (name : List Char) : Option (List Char) :=
  match name.dropWhile (· ≠ '.') with
  | [] => none
  | _ :: rest => some rest

-- The walk over the suffixes of a name. It gets shorter with every label.
def matchesSuffix (suffix : List String) (fuel : Nat) (name : List Char) : Bool :=
  match fuel, name with
  | 0, _ => false
  | _, [] => false
  | fuel + 1, name =>
    if suffix.contains (String.ofList name) then
      true
    else
      match dropLabel name with
      | some rest => matchesSuffix suffix fuel rest
      | none => false

end DomainMatcher

def DomainMatcher.matches (a : Automata) (m : DomainMatcher) (domain : String) : Bool :=
  let lower :=
    if (ofString domain).any (fun b => 0x41 ≤ b ∧ b ≤ 0x5A) then a.toLowercase domain else domain
  m.full.contains lower
    || matchesSuffix m.suffix (lower.length + 1) lower.toList
    || a.keyword m.keyword lower
    || a.regex m.regex lower

namespace CompiledRule

variable (a : Automata) (rule : CompiledRule) (ctx : RoutingContext)

def matchesInboundTag : Bool :=
  rule.inboundTags.isEmpty || rule.inboundTags.contains ctx.inboundTag

def matchesOptional (allowed : List String) (value : Option String) : Bool :=
  allowed.isEmpty || value.any allowed.contains

def matchesPort : Bool :=
  rule.portRanges.isEmpty
    || rule.portRanges.any fun (lo, hi) => ctx.dest.port ≥ lo && ctx.dest.port ≤ hi

def domainName : Option String :=
  match ctx.dest with
  | .domain name _ => some name
  | _ => ctx.sniffedDomain

def matchesDomain (geosite : Table String GeoSiteMatcher) : Bool :=
  if rule.domainMatcher.isSome || !rule.geositeCodes.isEmpty then
    match domainName ctx with
    | none => false
    | some name =>
      rule.domainMatcher.any (·.matches a name)
        || rule.geositeCodes.any fun code => (geosite code).any (a.geosite · name)
  else
    true

def matchesIp (geoip : Table String GeoIpMatcher) : Bool :=
  if rule.ipMatcher.isSome || !rule.geoipCodes.isEmpty then
    match ctx.dest.ip with
    | none => false
    | some ip =>
      rule.ipMatcher.any (·.matches ip)
        || rule.geoipCodes.any fun code => (geoip code).any (·.matchIp ip)
  else
    true

def matchesWithGeo (geo : GeoData) : Bool :=
  rule.matchesInboundTag ctx
    && matchesOptional rule.protocols ctx.sniffedProtocol
    && matchesOptional rule.users ctx.user
    && rule.matchesPort ctx
    && rule.matchesDomain a ctx geo.geosite
    && rule.matchesIp ctx geo.geoip

end CompiledRule

structure Route where
  outboundTag : String
deriving DecidableEq

def RouterInner.pickRouteMatchUncached (a : Automata) (inner : RouterInner) (ctx : RoutingContext)
    : Route × Bool :=
  match inner.rules.find? fun rule => rule.matchesWithGeo a ctx inner.geo with
  | some rule => (⟨rule.outboundTag⟩, true)
  | none => (⟨inner.defaultTag⟩, false)

inductive RoutingDomainStrategy where
  | asIs
  | ipIfNonMatch
  | ipOnDemand
deriving DecidableEq

def normalizeRoutingDomainStrategy (trim : String → String) (strategy : Option String)
    : RoutingDomainStrategy :=
  match strategy.map fun s => (trim s).map Char.toLower with
  | some "ipifnonmatch" => .ipIfNonMatch
  | some "ipondemand" => .ipOnDemand
  | _ => .asIs

inductive DnsAnswer where
  | found (ips : List IpAddr)
  | failed
  | timedOut
deriving DecidableEq

def DnsAnswer.ips : DnsAnswer → List IpAddr
  | found ips => ips
  | failed => []
  | timedOut => []

structure Resolution where
  dns : Option DnsAnswer
  host : DnsAnswer
  prefetchAllowed : Bool
  joined : Bool

def IpAddr.withPort (port : Nat) : IpAddr → Address
  | v4 ip => .ipv4 ip port
  | v6 ip => .ipv6 ip port

def someUnlessEmpty (ips : List Address) : Option (List Address) :=
  if ips.isEmpty then none else some ips

namespace Resolution

def resolveDomainIps (r : Resolution) : Address → Option (List Address)
  | .domain _ port =>
    let ips := ((r.dns.map DnsAnswer.ips).getD []).map (IpAddr.withPort port)
    someUnlessEmpty (if ips.isEmpty then r.host.ips.map (IpAddr.withPort port) else ips)
  | _ => none

def prefetchDns (r : Resolution) : Address → Option (Option (List Address))
  | .domain _ port =>
    r.dns.map fun answer =>
      if answer = .timedOut then
        none
      else
        let ips := answer.ips.map (IpAddr.withPort port)
        if ips.isEmpty then
          if r.host = .timedOut then none
          else someUnlessEmpty (r.host.ips.map (IpAddr.withPort port))
        else
          some ips
  | _ => none

end Resolution

def Address.isDomain : Address → Bool
  | domain _ _ => true
  | _ => false

section

variable (a : Automata) (inner : RouterInner)

def RouterInner.pickAddress (ctx : RoutingContext) (ips : List Address) : Option Route :=
  ips.findSome? fun ip =>
    let (route, found) := inner.pickRouteMatchUncached a { ctx with dest := ip }
    if found then some route else none

variable (r : Resolution) (strategy : RoutingDomainStrategy) (ctx : RoutingContext)

def RouterInner.pickOnDemand : Option Route :=
  if strategy = .ipOnDemand ∧ ctx.dest.isDomain ∧ inner.hasIpRules then
    (r.resolveDomainIps ctx.dest).bind (inner.pickAddress a ctx)
  else
    none

def RouterInner.pickDomain : Route :=
  let prefetch :=
    if r.prefetchAllowed ∧ strategy = .ipIfNonMatch ∧ ctx.dest.isDomain ∧ inner.hasIpRules then
      r.prefetchDns ctx.dest
    else
      none
  let (route, found) := inner.pickRouteMatchUncached a ctx
  if found ∨ strategy = .asIs then
    route
  else if strategy = .ipIfNonMatch ∧ ctx.dest.isDomain then
    let ips :=
      match prefetch with
      | some ips => if r.joined then ips else none
      | none => r.resolveDomainIps ctx.dest
    (ips.bind (inner.pickAddress a ctx)).getD route
  else
    route

end

def RouterInner.pickRouteXray (a : Automata) (trim : String → String) (inner : RouterInner)
    (r : Resolution) (ctx : RoutingContext) : Route :=
  let strategy := normalizeRoutingDomainStrategy trim inner.domainStrategy
  match inner.pickOnDemand a r strategy ctx with
  | some route => route
  | none => inner.pickDomain a r strategy ctx

open List

namespace DomainMatcher

theorem suffix_iff_dropLabel (name s : List Char)
    : '.' :: s <:+ name
        ↔ ∃ rest, dropLabel name = some rest ∧ (s = rest ∨ '.' :: s <:+ rest) := by
  induction name with
  | nil => simp [dropLabel]
  | cons c name ih =>
    rw [suffix_cons_iff]
    unfold dropLabel at ih ⊢
    by_cases hc : c = '.'
    . simp [hc]
    . simpa [hc, Ne.symm hc] using ih

theorem length_dropLabel (h : dropLabel name = some rest) : rest.length < name.length := by
  unfold dropLabel at h
  split at h
  . cases h
  . next hdrop =>
    cases h
    have hlen := (dropWhile_suffix (p := (· ≠ '.')) (l := name)).length_le
    rw [hdrop, length_cons] at hlen
    omega

theorem contains_iff (suffix : List String) (name : List Char)
    : suffix.contains (String.ofList name) = true ↔ ∃ s ∈ suffix, s.toList = name := by
  rw [contains_iff_mem]
  constructor
  . exact fun h => ⟨_, h, String.toList_ofList⟩
  . rintro ⟨s, h, rfl⟩
    rw [String.ofList_toList]
    exact h

theorem matchesSuffix_iff (suffix : List String) (hfuel : name.length < fuel)
    : matchesSuffix suffix fuel name = true
        ↔ ∃ s ∈ suffix, s ≠ "" ∧ (s.toList = name ∨ '.' :: s.toList <:+ name) := by
  induction fuel generalizing name with
  | zero => cases hfuel
  | succ fuel ih =>
    cases name with
    | nil => simp [matchesSuffix]
    | cons c name =>
      have hne : ∀ s : String, s.toList = c :: name → s ≠ "" := by
        rintro s hs rfl
        cases hs
      rw [matchesSuffix]
      split
      . next hmem =>
        rw [contains_iff] at hmem
        rcases hmem with ⟨s, hmem, hs⟩
        exact iff_of_true rfl ⟨s, hmem, hne s hs, .inl hs⟩
      . next hmem =>
        rw [contains_iff, not_exists] at hmem
        have hdrop := suffix_iff_dropLabel (c :: name)
        split
        . next rest hrest =>
          rw [ih ((length_dropLabel hrest).trans_le (Nat.le_of_lt_succ hfuel))]
          simp only [hdrop, hrest, Option.some.injEq, exists_eq_left']
          apply exists_congr
          intro s
          have hs := hmem s
          tauto
        . next hnone =>
          simp only [hdrop, hnone, reduceCtorEq, false_and, exists_false, or_false]
          apply iff_of_false nofun
          rintro ⟨s, hs, _, heq⟩
          exact hmem s ⟨hs, heq⟩
      . nofun

def Ascii (s : String) : Prop := ∀ c ∈ s.toList, c.toNat < 128

theorem toLower_toLower (c : Char) : c.toLower.toLower = c.toLower := by
  unfold Char.toLower
  split
  . next h =>
    apply dif_neg
    rintro ⟨_, hle⟩
    have hge : 65 ≤ c.val.toNat := h.left
    have hmax : c.val.toNat ≤ 90 := h.right
    have hle : (c.val + 32).toNat ≤ 90 := hle
    rw [UInt32.toNat_add, show (32 : UInt32).toNat = 32 from rfl] at hle
    omega
  . rfl

theorem toList_toLower (s : String) : s.toLower.toList = s.toList.map Char.toLower :=
  String.toList_map

theorem mem_ofString {domain : String} (hc : c ∈ domain.toList) (hascii : c.toNat < 128)
    : UInt8.ofNat c.toNat ∈ ofString domain := by
  have hbyte : c.toNat ≤ 127 := by omega
  rw [ofString, String.toUTF8, ← String.utf8Encode_toList, utf8Encode]
  simp only [data_toByteArray, toList_toArray, mem_flatMap]
  exact ⟨c, hc, by simp [String.utf8EncodeChar, hbyte]⟩

theorem toLower_of_not_upper (hascii : Ascii domain)
    (h : ¬(ofString domain).any (fun b => 0x41 ≤ b ∧ b ≤ 0x5A) = true)
    : domain.toLower = domain := by
  rw [← String.toList_inj, toList_toLower]
  refine (map_congr_left fun c hc => ?_).trans (map_id' _)
  apply dif_neg
  rintro ⟨hge, hle⟩
  have hge : 65 ≤ c.toNat := hge
  have hle : c.toNat ≤ 90 := hle
  apply h
  rw [any_eq_true]
  refine ⟨_, mem_ofString hc (hascii c hc), ?_⟩
  simp only [decide_eq_true_eq, UInt8.le_iff_toNat_le, UInt8.toNat_ofNat']
  rw [Nat.mod_eq_of_lt (by omega)]
  exact ⟨hge, hle⟩

end DomainMatcher

/--
The matcher for a group of a geosite file, with its rules by kind.
-/
structure SiteMatcher where
  full : List String
  suffix : List String
  keyword : List String
  regex : List String

-- The body is the one of `DomainMatcher::matches`, over hash sets.
def SiteMatcher.matchDomain (a : Automata) (m : SiteMatcher) (domain : String) : Bool :=
  DomainMatcher.matches a ⟨m.full, m.suffix, m.keyword, m.regex⟩ domain

/--
What the standard library and `aho_corasick` promise for names in ASCII. The keywords are searched
for without regard to case.
-/
structure Automata.Lawful (a : Automata) : Prop where
  toLowercase (s : String) (h : DomainMatcher.Ascii s) : a.toLowercase s = s.toLower
  keyword (keywords : List String) (name : String)
    : a.keyword keywords name = true
        ↔ ∃ k ∈ keywords, k.toLower.toList <:+: name.toLower.toList

def Covers (a : Automata) (full suffix keyword regex : List String) (lower : String) : Prop :=
  lower ∈ full
    ∨ (∃ s ∈ suffix, s ≠ "" ∧ (s = lower ∨ '.' :: s.toList <:+ lower.toList))
    ∨ (∃ k ∈ keyword, k.toLower.toList <:+: lower.toList)
    ∨ a.regex regex lower = true

theorem DomainMatcher.matches_iff (ha : a.Lawful) (m : DomainMatcher) (hascii : Ascii domain)
    : m.matches a domain = true ↔ Covers a m.full m.suffix m.keyword m.regex domain.toLower := by
  have hlower : (if (ofString domain).any (fun b => 0x41 ≤ b ∧ b ≤ 0x5A) then
      a.toLowercase domain else domain) = domain.toLower := by
    split
    . exact ha.toLowercase domain hascii
    . next h => exact (toLower_of_not_upper hascii h).symm
  have hagain : domain.toLower.toLower = domain.toLower := by
    rw [← String.toList_inj, toList_toLower, toList_toLower, map_map]
    exact map_congr_left fun c _ => toLower_toLower c
  have hsuffix := matchesSuffix_iff m.suffix (Nat.lt_succ_self domain.toLower.toList.length)
  rw [String.length_toList] at hsuffix
  unfold DomainMatcher.matches Covers
  rw [hlower]
  simp only [Bool.or_eq_true, or_assoc, contains_iff_mem, ha.keyword, hagain, hsuffix,
    String.toList_inj]

/--
Both matchers are exact: the end of a name that a suffix rule matches starts at a label, and an
empty suffix rule matches nothing.
-/
theorem domain_rules_exact (a : Automata) (ha : a.Lawful) (full suffix keyword regex : List String)
    (domain : String) (hascii : DomainMatcher.Ascii domain)
    : (DomainMatcher.matches a ⟨full, suffix, keyword, regex⟩ domain = true
        ↔ Covers a full suffix keyword regex domain.toLower)
      ∧ (SiteMatcher.matchDomain a ⟨full, suffix, keyword, regex⟩ domain = true
        ↔ Covers a full suffix keyword regex domain.toLower) :=
  ⟨DomainMatcher.matches_iff ha ⟨full, suffix, keyword, regex⟩ hascii,
    DomainMatcher.matches_iff ha ⟨full, suffix, keyword, regex⟩ hascii⟩

def plainAutomata : Automata where
  toLowercase := String.toLower
  keyword keywords name := keywords.any fun k => k.toLower.toList <:+: name.toLower.toList
  regex _ _ := false
  geosite _ _ := false

theorem lawful_plainAutomata : plainAutomata.Lawful where
  toLowercase _ _ := rfl
  keyword keywords name := by
    simp [plainAutomata]

theorem domain_rules_exact_subdomain
    : SiteMatcher.matchDomain plainAutomata ⟨[], ["example.com"], [], []⟩ "www.Example.com" := by
  apply (domain_rules_exact plainAutomata lawful_plainAutomata _ _ _ _ _ _).right.mpr
  . exact .inr (.inl ⟨"example.com", by decide +kernel⟩)
  . simp [DomainMatcher.Ascii]

theorem empty_suffix_rule_unmatched
    : DomainMatcher.matches plainAutomata ⟨[], [""], [], []⟩ "example.com." = false
      ∧ ("" = "example.com." ∨ '.' :: "".toList <:+ "example.com.".toList) := by
  decide +kernel

end Blackwire

namespace Blackwire.RouterInner

open List

section

variable {δ ρ : Type} {hits : δ → ρ → Bool} {rules : List ρ}

theorem find?_any_eq {ds : List δ} (hd : d ∈ ds) (hrules : rules = pre ++ rule :: post)
    (hrule : hits d rule)
    : rules.find? (fun r => ds.any fun d => hits d r)
        = some ((pre.find? fun r => ds.any fun d => hits d r).getD rule) := by
  have hany : (ds.any fun d => hits d rule) = true := any_eq_true.mpr ⟨d, hd, hrule⟩
  rw [hrules, find?_append, find?_cons, hany]
  cases pre.find? fun r => ds.any fun d => hits d r with
  | none => rfl
  | some q => rfl

end

variable (a : Automata) (inner : RouterInner) (ctx : RoutingContext)

def hits (dest : Address) (rule : CompiledRule) : Bool :=
  rule.matchesWithGeo a { ctx with dest := dest } inner.geo

def hitsEither (ips : List Address) (rule : CompiledRule) : Bool :=
  (ips ++ [ctx.dest]).any fun dest => inner.hits a ctx dest rule

def firstInOrder (ips : List Address) : Route :=
  match inner.rules.find? (inner.hitsEither a ctx ips) with
  | some rule => ⟨rule.outboundTag⟩
  | none => ⟨inner.defaultTag⟩

def asked (ips : List Address) : List Address :=
  (if inner.hasIpRules then ips else []) ++ [ctx.dest]

structure Decides (ips : List Address) (dest : Address) (pre : List CompiledRule)
    (rule : CompiledRule) : Prop where
  destination : ∃ before after, inner.asked ctx ips = before ++ dest :: after
    ∧ ∀ d ∈ before, ∀ r ∈ inner.rules, ¬inner.hits a ctx d r
  rules : ∃ post, inner.rules = pre ++ rule :: post
  hit : inner.hits a ctx dest rule
  first : ∀ r ∈ pre, ¬inner.hits a ctx dest r

/--
If a rule in front of the deciding one also matches by the domain or by one of the addresses, then
the first such rule has the same outbound. And if no rule matches a destination that the router is
asked for, then there is none that matches, or the first one has the default outbound.
-/
structure InOrder (ips : List Address) : Prop where
  before : ∀ dest pre rule, inner.Decides a ctx ips dest pre rule →
    ∀ q ∈ pre.find? (inner.hitsEither a ctx ips), q.outboundTag = rule.outboundTag
  none : (∀ d ∈ inner.asked ctx ips, ∀ r ∈ inner.rules, ¬inner.hits a ctx d r) →
    ∀ q ∈ inner.rules.find? (inner.hitsEither a ctx ips), q.outboundTag = inner.defaultTag

def pass (dest : Address) : Option Route :=
  (inner.rules.find? (inner.hits a ctx dest)).map fun rule => ⟨rule.outboundTag⟩

variable (dest : Address) (r : Resolution)

theorem hits_eq
    : inner.hits a ctx dest
        = fun rule => rule.matchesWithGeo a { ctx with dest := dest } inner.geo := by
  rfl

theorem pickRouteMatchUncached_eq
    : inner.pickRouteMatchUncached a { ctx with dest := dest }
        = ((inner.pass a ctx dest).getD ⟨inner.defaultTag⟩, (inner.pass a ctx dest).isSome) := by
  unfold pickRouteMatchUncached pass
  rw [← hits_eq]
  cases inner.rules.find? (inner.hits a ctx dest) with
  | none => rfl
  | some rule => rfl

theorem pickAddress_eq
    : inner.pickAddress a ctx ips = ips.findSome? (inner.pass a ctx) := by
  unfold pickAddress
  congr 1
  funext ip
  rw [pickRouteMatchUncached_eq]
  cases inner.pass a ctx ip with
  | none => rfl
  | some route => rfl

variable {a inner ctx}

theorem pass_eq_none_iff
    : inner.pass a ctx dest = none ↔ ∀ r ∈ inner.rules, ¬inner.hits a ctx dest r := by
  unfold pass
  rw [Option.map_eq_none_iff, find?_eq_none]

theorem Decides.findSome? (h : inner.Decides a ctx ips dest pre rule)
    : (inner.asked ctx ips).findSome? (inner.pass a ctx) = some ⟨rule.outboundTag⟩ := by
  rcases h.destination with ⟨before, after, hasked, hbefore⟩
  rcases h.rules with ⟨post, hrules⟩
  have hpass : inner.pass a ctx dest = some ⟨rule.outboundTag⟩ := by
    unfold pass
    rw [hrules, find?_append, find?_eq_none.mpr h.first, Option.none_or,
      find?_cons_of_pos h.hit]
    rfl
  have hnone : before.findSome? (inner.pass a ctx) = none := by
    rw [findSome?_eq_none_iff]
    intro d hd
    exact (pass_eq_none_iff d).mpr (hbefore d hd)
  rw [hasked, findSome?_append, hnone, Option.none_or, findSome?_cons, hpass]

theorem exists_decides (h : (inner.asked ctx ips).findSome? (inner.pass a ctx) = some route)
    : ∃ dest pre rule, inner.Decides a ctx ips dest pre rule := by
  rcases findSome?_eq_some_iff.mp h with ⟨before, dest, after, hasked, hpass, hbefore⟩
  rcases Option.map_eq_some_iff.mp hpass with ⟨rule, hfind, _⟩
  rcases find?_eq_some_iff_append.mp hfind with ⟨hhit, pre, post, hrules, hfirst⟩
  refine ⟨dest, pre, rule, ⟨before, after, hasked, ?_⟩, ⟨post, hrules⟩, hhit, ?_⟩
  . intro d hd
    exact (pass_eq_none_iff d).mp (hbefore d hd)
  . intro r hr
    simpa using hfirst r hr

theorem mem_of_asked (h : dest ∈ inner.asked ctx ips) : dest ∈ ips ++ [ctx.dest] := by
  unfold asked at h
  split at h
  next => exact h
  next => exact mem_append_right ips h

theorem Decides.firstInOrder_eq (h : inner.Decides a ctx ips dest pre rule)
    : inner.firstInOrder a ctx ips
        = ⟨((pre.find? (inner.hitsEither a ctx ips)).getD rule).outboundTag⟩ := by
  rcases h.destination with ⟨before, after, hasked, _⟩
  rcases h.rules with ⟨post, hrules⟩
  have hmem : dest ∈ ips ++ [ctx.dest] := by
    apply mem_of_asked
    rw [hasked]
    exact mem_append_right before mem_cons_self
  have hfind := find?_any_eq hmem hrules h.hit
  unfold firstInOrder
  rw [show inner.rules.find? (inner.hitsEither a ctx ips) = _ from hfind]
  rfl

theorem pickOnDemand_eq (hdomain : ctx.dest.isDomain)
    : inner.pickOnDemand a r .ipOnDemand ctx
        = (if inner.hasIpRules then (r.resolveDomainIps ctx.dest).getD [] else []).findSome?
            (inner.pass a ctx) := by
  unfold pickOnDemand
  by_cases hrules : inner.hasIpRules
  . rw [if_pos ⟨rfl, hdomain, hrules⟩, if_pos hrules]
    cases r.resolveDomainIps ctx.dest with
    | none => rfl
    | some ips => exact pickAddress_eq a inner ctx
  . rw [if_neg (fun h => hrules h.right.right), if_neg hrules]
    rfl

theorem pickDomain_eq
    : inner.pickDomain a r .ipOnDemand ctx
        = (inner.pass a ctx ctx.dest).getD ⟨inner.defaultTag⟩ := by
  have hdest := pickRouteMatchUncached_eq a inner ctx ctx.dest
  unfold pickDomain
  rw [hdest]
  simp only [reduceCtorEq, false_and, if_false, ite_self]

theorem pickRouteXray_onDemand (hdomain : ctx.dest.isDomain)
    (hstrategy : normalizeRoutingDomainStrategy trim inner.domainStrategy = .ipOnDemand)
    : inner.pickRouteXray a trim r ctx
        = ((inner.asked ctx ((r.resolveDomainIps ctx.dest).getD [])).findSome?
            (inner.pass a ctx)).getD ⟨inner.defaultTag⟩ := by
  unfold pickRouteXray asked
  dsimp only
  rw [hstrategy, pickOnDemand_eq r hdomain, pickDomain_eq, findSome?_append]
  cases (if inner.hasIpRules then (r.resolveDomainIps ctx.dest).getD [] else []).findSome?
      (inner.pass a ctx) with
  | some route => rfl
  | none =>
    rw [Option.none_or, findSome?_singleton]

theorem Decides.firstInOrder_iff (h : inner.Decides a ctx ips dest pre rule)
    : ⟨rule.outboundTag⟩ = inner.firstInOrder a ctx ips ↔ inner.InOrder a ctx ips := by
  constructor
  . intro heq
    constructor
    . intro dest' pre' rule' h' q hq
      -- Another deciding rule has the same outbound.
      have hsame := h'.findSome?
      rw [h.findSome?, Option.some.injEq] at hsame
      rw [hsame, h'.firstInOrder_eq, Option.mem_def.mp hq] at heq
      exact (Route.mk.inj heq).symm
    . intro hnone
      rcases h.destination with ⟨before, after, hasked, _⟩
      rcases h.rules with ⟨post, hrules⟩
      have hmem : dest ∈ inner.asked ctx ips := by
        rw [hasked]
        exact mem_append_right before mem_cons_self
      have hrule : rule ∈ inner.rules := by
        rw [hrules]
        exact mem_append_right pre mem_cons_self
      exact absurd h.hit (hnone dest hmem rule hrule)
  . intro hinOrder
    rw [h.firstInOrder_eq]
    cases hq : pre.find? (inner.hitsEither a ctx ips) with
    | none => rfl
    | some q => rw [Option.getD_some, hinOrder.before dest pre rule h q hq]

theorem default_firstInOrder_iff (h : (inner.asked ctx ips).findSome? (inner.pass a ctx) = none)
    : ⟨inner.defaultTag⟩ = inner.firstInOrder a ctx ips ↔ inner.InOrder a ctx ips := by
  have hnone : ∀ d ∈ inner.asked ctx ips, ∀ r ∈ inner.rules, ¬inner.hits a ctx d r := by
    intro d hd
    exact (pass_eq_none_iff d).mp (findSome?_eq_none_iff.mp h d hd)
  constructor
  . intro heq
    constructor
    . intro dest pre rule hdecides
      rw [hdecides.findSome?] at h
      cases h
    . intro _ q hq
      unfold firstInOrder at heq
      rw [Option.mem_def.mp hq] at heq
      exact (Route.mk.inj heq).symm
  . intro hinOrder
    unfold firstInOrder
    cases hq : inner.rules.find? (inner.hitsEither a ctx ips) with
    | none => rfl
    | some q =>
      dsimp only
      rw [hinOrder.none hnone q hq]

def domainRule : CompiledRule :=
  ⟨"proxy", some ⟨["example.com"], [], [], []⟩, [], none, [], [], [], [], []⟩

def addressRule : CompiledRule :=
  ⟨"direct", none, [], some ⟨.sortUnstable [.v4 ⟨0xCB007100, 24, by decide⟩]⟩, [], [], [], [], []⟩

def exactOnly : Automata := ⟨id, fun _ _ => false, fun _ _ => false, fun _ _ => false⟩

def onDemand (rules : List CompiledRule) : RouterInner :=
  .new rules "block" ⟨Table.empty, Table.empty⟩ (some "IPOnDemand")

def toExample : RoutingContext :=
  ⟨.domain "example.com" 443, .tcp, "in", none, none, none⟩

def resolved : Resolution := ⟨some (.found [.v4 0xCB007107]), .failed, true, true⟩

end Blackwire.RouterInner
